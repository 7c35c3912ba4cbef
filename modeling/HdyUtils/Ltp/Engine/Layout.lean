import HdyUtils.Ltp.Engine.Reassembly

/-! Where a receive session keeps the red data that it has received: from the start of the block in
`redBuf`, and beyond it in sparse segments that `redBuf` has not reached. -/

namespace HdyUtils.Ltp.RecvSession

/-- What was received is in `redBuf` or in the sparse segments, and the sparse segments were
received. -/
structure Laid (s : RecvSession) : Prop where
  stored : ∀ (offset : Nat) (data : Bytes), s.sparseRed[offset]? = some data →
    ∀ x, offset ≤ x → x < offset + data.length → x ∈ s.redReceived
  received : ∀ x ∈ s.redReceived, x < s.redBuf.length ∨ ∃ (offset : Nat) (data : Bytes),
    s.sparseRed[offset]? = some data ∧ offset ≤ x ∧ x < offset + data.length

/-- No sparse segment is reached by `redBuf`. -/
def Apart (s : RecvSession) : Prop :=
  ∀ (offset : Nat) (data : Bytes), s.sparseRed[offset]? = some data → s.redBuf.length < offset

variable {s s' : RecvSession}

/-! ### Moving the sparse segments -/

/-- The first sparse segment has the least offset. -/
theorem firstSparse_le {first offset : Nat} {head data : Bytes} (h : s.firstSparse = some (first, head))
    (hdata : s.sparseRed[offset]? = some data) : first ≤ offset := by
  have hmem : (offset, data) ∈ s.sparseRed.toList :=
    Std.TreeMap.mem_toList_iff_getElem?_eq_some.mpr hdata
  have hordered := Std.TreeMap.ordered_keys_toList (t := s.sparseRed)
  rw [firstSparse] at h
  cases hlist : s.sparseRed.toList with
  | nil => simp [hlist] at hmem
  | cons entry rest =>
    rw [hlist] at h hmem hordered
    simp only [List.head?_cons, Option.some.injEq] at h
    subst h
    rcases List.mem_cons.mp hmem with heq | hrest
    · cases heq
      exact le_rfl
    · have hlt := (List.pairwise_cons.mp hordered).1 (offset, data) hrest
      exact (Nat.compare_eq_lt.mp hlt).le

theorem firstSparse_none (h : s.firstSparse = none) (offset : Nat) : s.sparseRed[offset]? = none := by
  by_contra hne
  obtain ⟨data, hdata⟩ := Option.ne_none_iff_exists'.mp hne
  have hmem : (offset, data) ∈ s.sparseRed.toList :=
    Std.TreeMap.mem_toList_iff_getElem?_eq_some.mpr hdata
  rw [firstSparse, List.head?_eq_none_iff] at h
  simp [h] at hmem

/-- With enough fuel, all sparse segments that `redBuf` reaches are moved to it. -/
theorem apart_connectSparse {fuel : Nat} (hfuel : s.sparseRed.size ≤ fuel) :
    (connectSparse fuel s).Apart := by
  induction fuel generalizing s with
  | zero =>
    intro offset data hdata
    have hentry : s.sparseRed[offset]? = some data := hdata
    have hmem : offset ∈ s.sparseRed := by
      rw [Std.TreeMap.mem_iff_isSome_getElem?, hentry]
      rfl
    have hempty : s.sparseRed.isEmpty = true := by
      rw [Std.TreeMap.isEmpty_eq_size_eq_zero, beq_iff_eq]
      exact Nat.le_zero.mp hfuel
    exact absurd hmem (Std.TreeMap.not_mem_of_isEmpty hempty)
  | succ fuel ih =>
    rw [connectSparse]
    cases hfirst : s.firstSparse with
    | none =>
      intro offset data hdata
      simp [firstSparse_none hfirst] at hdata
    | some entry =>
      obtain ⟨first, head⟩ := entry
      simp only
      split
      · apply ih
        have hsize := Maps.size_erase_of_some (firstSparse_some hfirst)
        simp only
        omega
      · next hapart =>
        intro offset data hdata
        exact lt_of_lt_of_le (not_le.mp hapart) (firstSparse_le hfirst hdata)

theorem connectSparse_received (fuel : Nat) (s : RecvSession) :
    (connectSparse fuel s).redReceived = s.redReceived :=
  connectSparse_keeps (P := fun s' => s'.redReceived = s.redReceived)
    (fun _ _ _ h _ _ => h) fuel rfl

/-! ### Storing a segment -/

/-- A segment that is stored adds its extent to what was received. -/
theorem insertRed_received {offset maxBlockSize : Nat} {data : Bytes}
    (h : s.insertRed offset data maxBlockSize = (s', true)) (x : Nat) :
    x ∈ s'.redReceived ↔ x ∈ s.redReceived ∨ offset ≤ x ∧ x < offset + data.length := by
  simp only [insertRed] at h
  split at h
  · cases h
  split at h
  · cases h
  split at h
  · next hcovers =>
    cases h
    rw [RangeSet.covers_iff] at hcovers
    exact (or_iff_left_of_imp fun hx => hcovers x hx.1 hx.2).symm
  split at h
  · cases h
    rw [connectSparse_received]
    exact RangeSet.mem_insert
  split at h
  · cases h
  · cases h
    exact RangeSet.mem_insert

/-- A segment that is refused changes no data. -/
theorem insertRed_refused {offset maxBlockSize : Nat} {data : Bytes}
    (h : s.insertRed offset data maxBlockSize = (s', false)) :
    ∃ maxRedEnd, s' = { s with maxRedEnd } := by
  simp only [insertRed] at h
  split at h
  · cases h
    exact ⟨_, rfl⟩
  split at h
  · cases h
    exact ⟨_, rfl⟩
  split at h
  · cases h
  split at h
  · cases h
  split at h
  · cases h
    exact ⟨_, rfl⟩
  · cases h

/-- A piece that `redBuf` has reached joins it. -/
theorem Laid.join (h : s.Laid) {offset : Nat} {data : Bytes}
    (hbuf : s'.redBuf = writeAt s.redBuf offset data)
    (hsparse : ∀ (o : Nat) (d : Bytes), s'.sparseRed[o]? = some d → s.sparseRed[o]? = some d)
    (hkept : ∀ (o : Nat) (d : Bytes), s.sparseRed[o]? = some d → s'.sparseRed[o]? = some d ∨
      o = offset ∧ d = data)
    (hreceived : ∀ x, x ∈ s'.redReceived ↔
      x ∈ s.redReceived ∨ offset ≤ x ∧ x < offset + data.length) : s'.Laid := by
  have hlen : s'.redBuf.length = max s.redBuf.length (offset + data.length) := by
    rw [hbuf, length_writeAt]
  constructor
  · intro o d hd x hx hx'
    exact (hreceived x).mpr (.inl (h.stored o d (hsparse o d hd) x hx hx'))
  · intro x hx
    rcases (hreceived x).mp hx with hold | hnew
    · rcases h.received x hold with hlt | ⟨o, d, hd, hin⟩
      · exact .inl (by omega)
      · rcases hkept o d hd with hstill | ⟨rfl, rfl⟩
        · exact .inr ⟨o, d, hstill, hin⟩
        · exact .inl (by omega)
    · exact .inl (by omega)

/-- What moves a sparse segment to `redBuf`. -/
theorem sparse_joined {offset : Nat} {data : Bytes} (hentry : s.sparseRed[offset]? = some data) :
    (∀ (o : Nat) (d : Bytes), (s.joined offset data).sparseRed[o]? = some d →
      s.sparseRed[o]? = some d) ∧
    ∀ (o : Nat) (d : Bytes), s.sparseRed[o]? = some d →
      (s.joined offset data).sparseRed[o]? = some d ∨ o = offset ∧ d = data := by
  simp only [joined, Maps.getElem?_erase]
  constructor
  · intro o d hd
    split at hd
    · cases hd
    · exact hd
  · intro o d hd
    split
    · next heq =>
      subst heq
      rw [hentry] at hd
      exact .inr ⟨rfl, (Option.some.inj hd).symm⟩
    · exact .inl hd

theorem Laid.joined (h : s.Laid) {offset : Nat} {data : Bytes}
    (hentry : s.sparseRed[offset]? = some data) : (s.joined offset data).Laid := by
  obtain ⟨hsparse, hkept⟩ := sparse_joined hentry
  have hstored := h.stored offset data hentry
  exact h.join rfl hsparse hkept fun x =>
    (or_iff_left_of_imp fun hx => hstored x hx.1 hx.2).symm

theorem Laid.insertRed (h : s.Laid) (hapart : s.Apart) (offset : Nat) (data : Bytes)
    (maxBlockSize : Nat) : (s.insertRed offset data maxBlockSize).1.Laid ∧
      (s.insertRed offset data maxBlockSize).1.Apart := by
  simp only [RecvSession.insertRed]
  split
  · exact ⟨h, hapart⟩
  split
  · exact ⟨h, hapart⟩
  split
  · exact ⟨h, hapart⟩
  next hfresh =>
  split
  · refine ⟨connectSparse_keeps (fun _ _ _ hlaid hentry _ => hlaid.joined hentry) _ ?_,
      apart_connectSparse le_rfl⟩
    exact h.join rfl (fun _ _ hd => hd) (fun _ _ hd => .inl hd) fun x => RangeSet.mem_insert
  next hbeyond =>
  split
  · exact ⟨⟨h.stored, h.received⟩, hapart⟩
  -- A segment at the same offset is shorter, since it is received and the new one is not.
  have hlonger : ∀ old : Bytes, s.sparseRed[offset]? = some old → old.length ≤ data.length := by
    intro old hold
    by_contra hlt
    refine hfresh (RangeSet.covers_iff.mpr fun x hx hx' => h.stored offset old hold x hx ?_)
    simp only at hx hx'
    omega
  refine ⟨⟨fun o d hd x hx hx' => ?_, fun x hx => ?_⟩, fun o d hd => ?_⟩
  · simp only [Maps.getElem?_insert] at hd
    refine RangeSet.mem_insert.mpr ?_
    split at hd
    · next heq =>
      cases hd
      exact .inr (by simp only; omega)
    · exact .inl (h.stored o d hd x hx hx')
  · simp only [Maps.getElem?_insert]
    rcases RangeSet.mem_insert.mp hx with hold | hnew
    · rcases h.received x hold with hlt | ⟨o, d, hd, hin⟩
      · exact .inl hlt
      · by_cases heq : offset = o
        · subst heq
          have hlen := hlonger d hd
          exact .inr ⟨offset, data, if_pos rfl, hin.1, by omega⟩
        · exact .inr ⟨o, d, by rw [if_neg heq]; exact hd, hin⟩
    · exact .inr ⟨offset, data, if_pos rfl, hnew⟩
  · simp only [Maps.getElem?_insert] at hd
    split at hd
    · next heq =>
      subst heq
      exact not_le.mp hbeyond
    · exact hapart o d hd

/-- What was received up to the first gap is in `redBuf`. -/
theorem Laid.le_length (h : s.Laid) (hapart : s.Apart) {len : Nat}
    (hreceived : ∀ x < len, x ∈ s.redReceived) : len ≤ s.redBuf.length := by
  by_contra hshort
  -- the first octet that is missing in `redBuf` would lie in a sparse segment
  have hmem := hreceived s.redBuf.length (not_le.mp hshort)
  rcases h.received _ hmem with hlt | ⟨offset, data, hdata, hle, -⟩
  · exact lt_irrefl _ hlt
  · have hbeyond := hapart offset data hdata
    omega

end HdyUtils.Ltp.RecvSession
