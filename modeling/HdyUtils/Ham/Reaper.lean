import HdyUtils.Ham.Storage

/-! The expiration reaper (`internal_storage.rs`): what `purge_expired` deletes, and the deadline at
which it is to run next.  `purge_deadline_agree` says that the five queries mean the same rows. -/

namespace HdyUtils.Ham.InternalStorage

/-- The condition of the minimum queries: `is_sticky = 0 AND expiry_timestamp > 0`. -/
def scheduled (isSticky : Bool) (expiryTimestamp : Int64) : Bool := !isSticky && 0 < expiryTimestamp

/-- The earliest expiration timestamp of the items that are scheduled to expire. -/
def getNextExpirationDeadline (s : InternalStorage) : Option Int64 :=
  let minFiles := ((s.filesBundles.rows.filter fun row =>
    scheduled row.isSticky row.expiryTimestamp).map (·.expiryTimestamp)).min?
  let minChat := ((s.chatMessages.rows.filter fun m =>
    scheduled m.isSticky m.expiryTimestamp).map (·.expiryTimestamp)).min?
  match minFiles, minChat with
  | some f, some c => some (min f c)
  | some f, none => some f
  | none, some c => some c
  | none, none => none

/-! ### The rows that expire -/

/-- A row that is not sticky and has an expiry that has come. -/
def Lapsed (now : Int64) (isSticky : Bool) (expiryTimestamp : Int64) : Prop :=
  isSticky = false ∧ 0 < expiryTimestamp ∧ expiryTimestamp ≤ now

instance (now : Int64) (isSticky : Bool) (expiryTimestamp : Int64) :
    Decidable (Lapsed now isSticky expiryTimestamp) := inferInstanceAs (Decidable (_ ∧ _ ∧ _))

/-- Some row is to expire at `d`. -/
def Due (s : InternalStorage) (d : Int64) : Prop :=
  (∃ row ∈ s.filesBundles.rows, row.isSticky = false ∧ 0 < row.expiryTimestamp ∧
    row.expiryTimestamp = d) ∨
  ∃ m ∈ s.chatMessages.rows, m.isSticky = false ∧ 0 < m.expiryTimestamp ∧ m.expiryTimestamp = d

theorem expired_eq (now : Int64) (isSticky : Bool) (expiryTimestamp : Int64) :
    expired now isSticky expiryTimestamp = decide (Lapsed now isSticky expiryTimestamp) := by
  rw [Bool.eq_iff_iff, decide_eq_true_iff]
  simp [expired, Lapsed, and_assoc]

variable {s : InternalStorage} {f : Faults} {now d : Int64}

theorem mem_scheduled {α : Type} {rows : List α} {sticky : α → Bool} {expiry : α → Int64} :
    d ∈ (rows.filter fun r => scheduled (sticky r) (expiry r)).map expiry ↔
      ∃ r ∈ rows, sticky r = false ∧ 0 < expiry r ∧ expiry r = d := by
  simp [scheduled, and_assoc]

/-- The lesser of two minima is the minimum of both lists. -/
theorem min?_append_eq (l l' : List Int64) :
    (match l.min?, l'.min? with
      | some f, some c => some (min f c)
      | some f, none => some f
      | none, some c => some c
      | none, none => none) = (l ++ l').min? := by
  cases hl : l.min? with
  | none =>
    rw [List.min?_eq_none_iff.mp hl, List.nil_append]
    cases l'.min? <;> rfl
  | some a =>
    cases hl' : l'.min? with
    | none => rw [List.min?_eq_none_iff.mp hl', List.append_nil, hl]
    | some b =>
      obtain ⟨ha, hle⟩ := List.min?_eq_some_iff.mp hl
      obtain ⟨hb, hle'⟩ := List.min?_eq_some_iff.mp hl'
      refine (List.min?_eq_some_iff.mpr ⟨?_, fun c hc => ?_⟩).symm
      · rcases Std.min_eq_or (a := a) (b := b) with heq | heq
        · rw [heq]
          exact List.mem_append_left l' ha
        · rw [heq]
          exact List.mem_append_right l hb
      · rcases List.mem_append.mp hc with hc | hc
        · exact Int64.le_trans Std.min_le_left (hle c hc)
        · exact Int64.le_trans Std.min_le_right (hle' c hc)

/-- The deadline is the least expiry of both tables. -/
theorem deadline_eq_min (s : InternalStorage) : s.getNextExpirationDeadline =
    (((s.filesBundles.rows.filter fun row => scheduled row.isSticky row.expiryTimestamp).map
        (·.expiryTimestamp)) ++
      (s.chatMessages.rows.filter fun m => scheduled m.isSticky m.expiryTimestamp).map
        (·.expiryTimestamp)).min? := min?_append_eq _ _

theorem deadline_eq_none : s.getNextExpirationDeadline = none ↔ ∀ d, ¬s.Due d := by
  rw [deadline_eq_min, List.min?_eq_none_iff, List.eq_nil_iff_forall_not_mem]
  simp only [List.mem_append, mem_scheduled, Due]

theorem deadline_eq_some :
    s.getNextExpirationDeadline = some d ↔ s.Due d ∧ ∀ d', s.Due d' → d ≤ d' := by
  rw [deadline_eq_min, List.min?_eq_some_iff]
  simp only [List.mem_append, mem_scheduled, Due]

/-! ### The purge -/

/-- The number of items that are expired. -/
def lapsedCount (s : InternalStorage) (now : Int64) : Nat :=
  (s.filesBundles.rows.filter fun row => decide (Lapsed now row.isSticky row.expiryTimestamp)).length +
    (s.chatMessages.rows.filter fun m => decide (Lapsed now m.isSticky m.expiryTimestamp)).length

/-- `t` is `s` without the rows that are expired and the payload files of those. -/
structure Purged (s : InternalStorage) (f : Faults) (now : Int64) (t : InternalStorage) : Prop where
  files : t.filesBundles.rows = s.filesBundles.rows.filter fun row =>
    !decide (Lapsed now row.isSticky row.expiryTimestamp)
  chats : t.chatMessages.rows = s.chatMessages.rows.filter fun m =>
    !decide (Lapsed now m.isSticky m.expiryTimestamp)
  conversations : t.chatConversations = s.chatConversations
  /-- A file is gone, unless the system does not remove it. -/
  removed : ∀ row ∈ s.filesBundles.rows, Lapsed now row.isSticky row.expiryTimestamp →
    f.stuck row.payloadPath = false → t.disk row.payloadPath = none
  kept : ∀ row ∈ t.filesBundles.rows, t.disk row.payloadPath = s.disk row.payloadPath
  others : ∀ path, (∀ row ∈ s.filesBundles.rows, row.payloadPath ≠ path) → t.disk path = s.disk path

/-- What a condition keeps and what it drops are together as long as the list. -/
theorem length_filter_not_add {α : Type} (l : List α) (p : α → Bool) :
    (l.filter fun x => !p x).length + (l.filter p).length = l.length := by
  have hsum : l.length = (l.filter p).length + (l.filter fun x => !p x).length :=
    List.length_eq_length_filter_add p
  omega

theorem purgeExpired_count (hdatabase : f.database = false) :
    (s.purgeExpired f now).1 = .ok (s.lapsedCount now) := by
  unfold purgeExpired lapsedCount
  simp only [hdatabase, Bool.false_eq_true, if_false, Table.delete, expired_eq]
  have hfiles := length_filter_not_add s.filesBundles.rows fun row =>
    decide (Lapsed now row.isSticky row.expiryTimestamp)
  have hchats := length_filter_not_add s.chatMessages.rows fun m =>
    decide (Lapsed now m.isSticky m.expiryTimestamp)
  congr 1
  omega

theorem purged_purgeExpired (hdatabase : f.database = false)
    (hpaths : (s.filesBundles.rows.map (·.payloadPath)).Nodup) :
    s.Purged f now (s.purgeExpired f now).2 := by
  have hfiles : (s.purgeExpired f now).2.filesBundles.rows = s.filesBundles.rows.filter fun row =>
      !decide (Lapsed now row.isSticky row.expiryTimestamp) := by
    simp only [purgeExpired, hdatabase, Bool.false_eq_true, if_false, Table.delete, expired_eq]
  have hlapsed : ∀ path, (∃ row ∈ s.expiredFiles now, row.payloadPath = path) ↔
      ∃ row ∈ s.filesBundles.rows, Lapsed now row.isSticky row.expiryTimestamp ∧
        row.payloadPath = path := by
    intro path
    simp only [expiredFiles, List.mem_filter, expired_eq, decide_eq_true_iff, and_assoc]
  refine ⟨hfiles, ?_, ?_, fun row hrow hnow hstuck => ?_, fun row hrow => ?_, fun path hpath => ?_⟩
  · simp only [purgeExpired, hdatabase, Bool.false_eq_true, if_false, Table.delete, expired_eq]
  · simp only [purgeExpired, hdatabase, Bool.false_eq_true, if_false, removeFiles]
  · rw [purgeExpired_disk, if_pos ⟨(hlapsed _).mpr ⟨row, hrow, hnow, rfl⟩, hstuck⟩]
  · rw [hfiles, List.mem_filter, Bool.not_eq_true', decide_eq_false_iff_not] at hrow
    rw [purgeExpired_disk, if_neg]
    rintro ⟨hsome, -⟩
    obtain ⟨row', hrow', hnow, hpath⟩ := (hlapsed _).mp hsome
    -- no other row has the path
    rw [List.inj_on_of_nodup_map hpaths hrow' hrow.1 hpath] at hnow
    exact hrow.2 hnow
  · rw [purgeExpired_disk, if_neg]
    rintro ⟨hsome, -⟩
    obtain ⟨row, hrow, -, heq⟩ := (hlapsed _).mp hsome
    exact hpath row hrow heq

/-- What is due after a purge was due before, and is so later. -/
theorem due_purgeExpired (hdatabase : f.database = false) :
    (s.purgeExpired f now).2.Due d ↔ s.Due d ∧ now < d := by
  have hnot : ∀ {sticky : Bool} {expiry : Int64}, sticky = false → 0 < expiry →
      (¬Lapsed now sticky expiry ↔ now < expiry) := by
    intro sticky expiry hsticky hpos
    rw [Lapsed, and_iff_right hsticky, and_iff_right hpos, Int64.not_le]
  simp only [Due, purgeExpired, hdatabase, Bool.false_eq_true, if_false, Table.delete, expired_eq,
    List.mem_filter, Bool.not_eq_true', decide_eq_false_iff_not]
  constructor
  · rintro (⟨r, ⟨hr, hlapsed⟩, hsticky, hpos, rfl⟩ | ⟨r, ⟨hr, hlapsed⟩, hsticky, hpos, rfl⟩)
    · exact ⟨.inl ⟨r, hr, hsticky, hpos, rfl⟩, (hnot hsticky hpos).mp hlapsed⟩
    · exact ⟨.inr ⟨r, hr, hsticky, hpos, rfl⟩, (hnot hsticky hpos).mp hlapsed⟩
  · rintro ⟨⟨r, hr, hsticky, hpos, rfl⟩ | ⟨r, hr, hsticky, hpos, rfl⟩, hlt⟩
    · exact .inl ⟨r, ⟨hr, (hnot hsticky hpos).mpr hlt⟩, hsticky, hpos, rfl⟩
    · exact .inr ⟨r, ⟨hr, (hnot hsticky hpos).mpr hlt⟩, hsticky, hpos, rfl⟩

/-- A purge at a time at which an item is due deletes it. -/
theorem lapsedCount_pos (hdue : s.Due d) : 0 < s.lapsedCount d := by
  have hpos : ∀ {α : Type} {l : List α} {p : α → Bool} {r : α}, r ∈ l → p r = true →
      0 < (l.filter p).length := by
    intro α l p r hr hp
    exact List.length_pos_of_mem (List.mem_filter.mpr ⟨hr, hp⟩)
  unfold lapsedCount
  rcases hdue with ⟨r, hr, hsticky, hexpiry, rfl⟩ | ⟨r, hr, hsticky, hexpiry, rfl⟩
  · exact Nat.add_pos_left (hpos hr (decide_eq_true ⟨hsticky, hexpiry, Int64.le_refl _⟩)) _
  · exact Nat.add_pos_right _ (hpos hr (decide_eq_true ⟨hsticky, hexpiry, Int64.le_refl _⟩))

/-! ### The reaper -/

/-- A purge at the deadline, if there is one. -/
def reap (f : Faults) (s : InternalStorage) : InternalStorage :=
  match s.getNextExpirationDeadline with
  | some deadline => (s.purgeExpired f deadline).2
  | none => s

def size (s : InternalStorage) : Nat := s.filesBundles.rows.length + s.chatMessages.rows.length

theorem size_purgeExpired (hdatabase : f.database = false) :
    (s.purgeExpired f now).2.size + s.lapsedCount now = s.size := by
  unfold size lapsedCount
  simp only [purgeExpired, hdatabase, Bool.false_eq_true, if_false, Table.delete, expired_eq]
  have hfiles := length_filter_not_add s.filesBundles.rows fun row =>
    decide (Lapsed now row.isSticky row.expiryTimestamp)
  have hchats := length_filter_not_add s.chatMessages.rows fun m =>
    decide (Lapsed now m.isSticky m.expiryTimestamp)
  omega

/-- After as many deadlines as there are rows, nothing is left to expire. -/
theorem deadline_iterate_reap (hdatabase : f.database = false) {n : Nat} (hn : s.size ≤ n) :
    ((reap f)^[n] s).getNextExpirationDeadline = none := by
  induction n generalizing s with
  | zero =>
    rw [Function.iterate_zero, id, deadline_eq_none]
    rintro d (⟨r, hr, -⟩ | ⟨r, hr, -⟩)
    all_goals
      have := List.length_pos_of_mem hr
      unfold size at hn
      omega
  | succ n ih =>
    rw [Function.iterate_succ_apply]
    cases hdeadline : s.getNextExpirationDeadline with
    | none =>
      have hstay : ∀ m, (reap f)^[m] s = s :=
        Function.iterate_fixed (by rw [reap, hdeadline])
      rw [reap, hdeadline, hstay, hdeadline]
    | some d =>
      have hdue := (deadline_eq_some.mp hdeadline).1
      have hdeleted := lapsedCount_pos hdue
      have hsize : (s.purgeExpired f d).2.size + s.lapsedCount d = s.size :=
        size_purgeExpired hdatabase
      have hreap : reap f s = (s.purgeExpired f d).2 := by rw [reap, hdeadline]
      rw [hreap]
      exact ih (by omega)

/-- The purge deletes the expired rows and their files and nothing else; the deadline is then the
earliest expiry that is left, which is still to come, and the purge at it deletes something. -/
theorem purge_deadline_agree (s : InternalStorage) (f : Faults) (now : Int64)
    (hdatabase : f.database = false) (hpaths : (s.filesBundles.rows.map (·.payloadPath)).Nodup) :
    (s.purgeExpired f now).1 = .ok (s.lapsedCount now) ∧ s.Purged f now (s.purgeExpired f now).2 ∧
    ((s.purgeExpired f now).2.getNextExpirationDeadline = none ↔
      ∀ d, ¬(s.purgeExpired f now).2.Due d) ∧
    (∀ d, (s.purgeExpired f now).2.getNextExpirationDeadline = some d →
      (s.purgeExpired f now).2.Due d ∧ (∀ d', (s.purgeExpired f now).2.Due d' → d ≤ d') ∧ now < d ∧
      0 < (s.purgeExpired f now).2.lapsedCount d) ∧
    ∀ n, s.size ≤ n → ((reap f)^[n] s).getNextExpirationDeadline = none := by
  refine ⟨purgeExpired_count hdatabase, purged_purgeExpired hdatabase hpaths, deadline_eq_none,
    fun d hdeadline => ?_, fun n hn => deadline_iterate_reap hdatabase hn⟩
  obtain ⟨hdue, hleast⟩ := deadline_eq_some.mp hdeadline
  exact ⟨hdue, hleast, ((due_purgeExpired hdatabase).mp hdue).2, lapsedCount_pos hdue⟩

/-- A storage with a file that expires at time 5 and another at time 9. -/
def twoFiles : InternalStorage where
  filesDir := "files"
  chatConversations := Table.empty
  chatMessages := Table.empty
  filesBundles := (Table.empty.insertOrReplace (file "a" 5)).insertOrReplace (file "b" 9)
  disk := fun path => if path = "a" ∨ path = "b" then some [7] else none
where
  file (id : String) (expiryTimestamp : Int64) : FileBundleRecord :=
    { id, sourceEid := "dtn://x/", destinationEid := "dtn://y/files", creationTimestamp := 1
      lifetimeSecs := 0, expiryTimestamp, size := 1, payloadPath := id, mimeType := "text/plain"
      isSticky := false, isRead := false, createdAt := "" }

theorem purge_deadline_agree_two_files :
    (twoFiles.purgeExpired ⟨.done, fun _ => false, false⟩ 5).1 = .ok 1 ∧
    twoFiles.Purged ⟨.done, fun _ => false, false⟩ 5
      (twoFiles.purgeExpired ⟨.done, fun _ => false, false⟩ 5).2 ∧
    (twoFiles.purgeExpired ⟨.done, fun _ => false, false⟩ 5).2.getNextExpirationDeadline = some 9 := by
  obtain ⟨hcount, hpurged, -⟩ :=
    purge_deadline_agree twoFiles ⟨.done, fun _ => false, false⟩ 5 rfl (by decide)
  exact ⟨hcount, hpurged, by decide⟩

end HdyUtils.Ham.InternalStorage
