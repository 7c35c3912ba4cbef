import HdyUtils.Ham.Storage
import HdyUtils.Lib.Trace

/-! Sticky retention.  What the operator has made sticky keeps its row, and a file its payload, as long
as the actions on the station spare it: `retained_along_iff` says what each of them must not meet. -/

namespace HdyUtils.Ham

open Security Trace

/-- A station: its storage, and beside it the octets that came with the row of each file, and what the
operator has made sticky and not unset or deleted, a file with its octets. -/
structure Station where
  storage : InternalStorage
  delivered : String → Bytes
  pinnedFiles : String → Option Bytes
  pinnedChats : String → Bool

/-- A station without files and messages. -/
def Station.new (filesDir : String) (disk : String → Option Bytes) : Station where
  storage := ⟨filesDir, .empty, .empty, .empty, disk⟩
  delivered := fun _ => []
  pinnedFiles := fun _ => none
  pinnedChats := fun _ => false

inductive Action
  | deliverFile (data : Bytes) (now : Int)
  | deliverChat (data : Bytes) (now : Int)
  | toggleFile (id : String)
  | toggleChat (id : String)
  | deleteFile (id : String)
  | markFileRead (id : String)
  | markConversationRead (peer : String)
  | purge (nowMs : Int64)

namespace Station

variable {E : Type} (p : Platform E) (s : Station) (f : Faults)

def deliverFile (data : Bytes) (now : Int) : Station :=
  { s with
    storage := FilesService.handleDeliveredBundle p s.storage f data now
    delivered :=
      match deliveredBundle p data with
      | some (primary, payload) =>
        if f.write = .done ∧ f.database = false then
          Function.update s.delivered (p.toKey primary) payload
        else s.delivered
      | none => s.delivered }

def toggleFile (id : String) : Station :=
  match s.storage.toggleFileSticky f id with
  | .ok (next, storage) =>
    { s with
      storage := storage
      pinnedFiles := Function.update s.pinnedFiles id (if next then some (s.delivered id) else none) }
  | .error _ => s

def toggleChat (id : String) : Station :=
  match s.storage.toggleChatSticky f id with
  | .ok (next, storage) =>
    { s with storage := storage, pinnedChats := Function.update s.pinnedChats id next }
  | .error _ => s

/-- The operator's own deletion ends the retention of a file. -/
def deleteFile (id : String) : Station :=
  { s with
    storage := (s.storage.deleteFileBundle f id).2
    pinnedFiles := Function.update s.pinnedFiles id none }

def step (s : Station) (act : Action × Faults) : Station :=
  match act.1 with
  | .deliverFile data now => s.deliverFile p act.2 data now
  | .deliverChat data now =>
    { s with storage := ChatService.handleDeliveredBundle p s.storage act.2 data now }
  | .toggleFile id => s.toggleFile act.2 id
  | .toggleChat id => s.toggleChat act.2 id
  | .deleteFile id => s.deleteFile act.2 id
  | .markFileRead id => { s with storage := (s.storage.markFileRead act.2 id).toOption.getD s.storage }
  | .markConversationRead peer =>
    { s with
      storage := (s.storage.markConversationRead act.2 p.lowercase peer).toOption.getD s.storage }
  | .purge nowMs => { s with storage := (s.storage.purgeExpired act.2 nowMs).2 }

/-- Every file that is sticky for the operator has its row, marked so, and its payload, and every
message its row. -/
structure Retained (s : Station) : Prop where
  files : ∀ id bytes, s.pinnedFiles id = some bytes → ∃ row,
    s.storage.filesBundles.get id = some row ∧ row.isSticky = true ∧
      s.storage.disk row.payloadPath = some bytes
  chats : ∀ id, s.pinnedChats id = true → ∃ m,
    s.storage.chatMessages.get id = some m ∧ m.isSticky = true

/-- The file with this id is sticky for the operator, and its payload is at this path. -/
def KeepsAt (s : Station) (path id : String) (bytes : Bytes) : Prop :=
  s.pinnedFiles id = some bytes ∧
    ∃ row, s.storage.filesBundles.get id = some row ∧ row.payloadPath = path

/-- The action spares what is sticky.  A bundle that is stored has not the id of a sticky item, and no
payload is written over a different one or removed that a sticky file has at the same path.  A file
that becomes sticky has its payload still. -/
def Spares (s : Station) (act : Action × Faults) : Prop :=
  match act.1 with
  | .deliverFile data _ => ∀ primary payload, deliveredBundle p data = some (primary, payload) →
      (act.2.write = .done → act.2.database = false → s.pinnedFiles (p.toKey primary) = none) ∧
      ∀ content, act.2.write.left payload = some content → ∀ id bytes,
        s.KeepsAt (FilesService.payloadPath p s.storage.filesDir (p.toKey primary) payload) id bytes →
          content = bytes
  | .deliverChat data _ => ∀ primary payload, deliveredBundle p data = some (primary, payload) →
      act.2.database = false → s.pinnedChats (p.toKey primary) = false
  | .toggleFile id => act.2.database = false → ∀ row, s.storage.filesBundles.get id = some row →
      row.isSticky = false → s.storage.disk row.payloadPath = some (s.delivered id)
  | .deleteFile id => ∀ row, s.storage.filesBundles.get id = some row →
      act.2.stuck row.payloadPath = false →
      ∀ id' bytes, id' ≠ id → ¬s.KeepsAt row.payloadPath id' bytes
  | .purge nowMs => ∀ row ∈ s.storage.expiredFiles nowMs, act.2.stuck row.payloadPath = false →
      ∀ id bytes, ¬s.KeepsAt row.payloadPath id bytes
  | .toggleChat _ | .markFileRead _ | .markConversationRead _ => True

variable {p} {s} {f}

/-! ### Deliveries -/

theorem retained_deliverFile (hs : s.Retained) (data : Bytes) (now : Int) :
    s.Spares p (.deliverFile data now, f) ↔ (s.step p (.deliverFile data now, f)).Retained := by
  cases hdelivered : deliveredBundle p data with
  | none =>
    refine iff_of_true (fun primary payload h => by rw [hdelivered] at h; cases h) ?_
    simp only [step, deliverFile, hdelivered, FilesService.handleDelivered_ignored s.storage f now hdelivered]
    exact ⟨hs.files, hs.chats⟩
  | some bundle =>
    obtain ⟨primary, payload⟩ := bundle
    have hget := FilesService.handleDelivered_get s.storage f now hdelivered
    have hdisk := FilesService.handleDelivered_disk s.storage f now hdelivered
    constructor
    · intro hspares
      obtain ⟨hfresh, hsame⟩ := hspares primary payload hdelivered
      refine ⟨fun id bytes hpin => ?_, fun id hpin => ?_⟩
      · change s.pinnedFiles id = some bytes at hpin
        obtain ⟨row, hrow, hsticky, hbytes⟩ := hs.files id bytes hpin
        refine ⟨row, (hget id).trans ?_, hsticky, (hdisk row.payloadPath).trans ?_⟩
        · rw [if_neg, hrow]
          rintro ⟨hwrite, hdatabase, rfl⟩
          rw [hfresh hwrite hdatabase] at hpin
          cases hpin
        · split
          · next heq =>
            cases hleft : f.write.left payload with
            | none => exact hbytes
            | some content => exact congrArg some (hsame content hleft id bytes ⟨hpin, row, hrow, heq⟩)
          · exact hbytes
      · obtain ⟨m, hm, hsticky⟩ := hs.chats id hpin
        exact ⟨m, (FilesService.handleDelivered_chats s.storage f now data).2 ▸ hm, hsticky⟩
    · intro hretained primary' payload' hdelivered'
      obtain ⟨rfl, rfl⟩ : primary = primary' ∧ payload = payload' := by
        simpa [hdelivered] using hdelivered'
      -- the new row is not sticky
      have hfresh (hwrite : f.write = .done) (hdatabase : f.database = false) :
          s.pinnedFiles (p.toKey primary) = none := by
        by_contra hne
        obtain ⟨bytes, hpin⟩ := Option.ne_none_iff_exists'.mp hne
        obtain ⟨row, hrow, hsticky, -⟩ := hretained.files _ bytes hpin
        have hnew := (hget (p.toKey primary)).symm.trans hrow
        rw [if_pos ⟨hwrite, hdatabase, rfl⟩] at hnew
        cases hnew
        cases hsticky
      refine ⟨hfresh, fun content hleft id bytes ⟨hpin, row, hrow, heq⟩ => ?_⟩
      obtain ⟨row', hrow', -, hbytes⟩ := hretained.files id bytes hpin
      have hold := (hget id).symm.trans hrow'
      rw [if_neg, hrow] at hold
      · cases hold
        have hnew := (hdisk row.payloadPath).symm.trans hbytes
        rw [if_pos heq, hleft] at hnew
        exact Option.some.inj hnew
      · rintro ⟨hwrite, hdatabase, rfl⟩
        rw [hfresh hwrite hdatabase] at hpin
        cases hpin

theorem retained_deliverChat (hs : s.Retained) (data : Bytes) (now : Int) :
    s.Spares p (.deliverChat data now, f) ↔ (s.step p (.deliverChat data now, f)).Retained := by
  cases hdelivered : deliveredBundle p data with
  | none =>
    refine iff_of_true (fun primary payload h => by rw [hdelivered] at h; cases h) ?_
    simp only [step, ChatService.handleDelivered_ignored s.storage f now hdelivered]
    exact hs
  | some bundle =>
    obtain ⟨primary, payload⟩ := bundle
    have hget := ChatService.handleDelivered_get s.storage f now hdelivered
    constructor
    · intro hspares
      refine ⟨fun id bytes hpin => ?_, fun id hpin => ?_⟩
      · simp only [step, ChatService.handleDelivered_files s.storage f now data]
        exact hs.files id bytes hpin
      · change s.pinnedChats id = true at hpin
        obtain ⟨m, hm, hsticky⟩ := hs.chats id hpin
        refine ⟨m, (hget id).trans ?_, hsticky⟩
        rw [if_neg, hm]
        rintro ⟨hdatabase, rfl⟩
        rw [hspares primary payload hdelivered hdatabase] at hpin
        cases hpin
    · intro hretained primary' payload' hdelivered' hdatabase
      obtain ⟨rfl, rfl⟩ : primary = primary' ∧ payload = payload' := by
        simpa [hdelivered] using hdelivered'
      by_contra hne
      have hpin : s.pinnedChats (p.toKey primary) = true := by simpa using hne
      obtain ⟨m, hm, hsticky⟩ := hretained.chats _ hpin
      have hnew := (hget (p.toKey primary)).symm.trans hm
      rw [if_pos ⟨hdatabase, rfl⟩] at hnew
      cases hnew
      cases hsticky

/-! ### Toggles -/

theorem retained_toggleFile (hs : s.Retained) (id : String) :
    s.Spares p (.toggleFile id, f) ↔ (s.step p (.toggleFile id, f)).Retained := by
  show _ ↔ (s.toggleFile f id).Retained
  unfold toggleFile InternalStorage.toggleFileSticky
  cases hrow : s.storage.filesBundles.get id with
  | none => exact iff_of_true (fun _ row h => by rw [hrow] at h; cases h) hs
  | some row =>
    cases hdatabase : f.database with
    | true => exact iff_of_true (fun h => by rw [hdatabase] at h; cases h) hs
    | false =>
      have hid : row.id = id := Table.key_of_get hrow
      have hspares : s.Spares p (.toggleFile id, f) ↔ (row.isSticky = false →
          s.storage.disk row.payloadPath = some (s.delivered id)) := by
        simp [Spares, hdatabase, hrow]
      rw [hspares]
      simp only [Bool.false_eq_true, if_false]
      constructor
      · intro hpayload
        refine ⟨fun id' bytes hpin => ?_, hs.chats⟩
        by_cases heq : id' = id
        · subst heq
          cases hsticky : row.isSticky with
          | true => simp [hsticky] at hpin
          | false =>
            obtain rfl : s.delivered id' = bytes := by simpa [hsticky] using hpin
            refine ⟨{ row with isSticky := true }, ?_, rfl, hpayload hsticky⟩
            simp [Table.get_update, hrow, hid]
        · obtain ⟨row', hrow', hsticky', hbytes⟩ := hs.files id' bytes (by simpa [heq] using hpin)
          refine ⟨row', ?_, hsticky', hbytes⟩
          have hid' : row'.id = id' := Table.key_of_get hrow'
          simp [Table.get_update, hrow', hid', heq]
      · intro hretained hsticky
        obtain ⟨row', hrow', -, hbytes⟩ := hretained.files id (s.delivered id) (by simp [hsticky])
        have heq : ({ row with isSticky := true } : FileBundleRecord) = row' := by
          simpa [Table.get_update, hrow, hid, hsticky] using hrow'
        rw [← heq] at hbytes
        exact hbytes

theorem retained_toggleChat (hs : s.Retained) (id : String) : (s.toggleChat f id).Retained := by
  unfold toggleChat InternalStorage.toggleChatSticky
  cases hm : s.storage.chatMessages.get id with
  | none => exact hs
  | some m =>
    cases f.database with
    | true => exact hs
    | false =>
      have hid : m.id = id := Table.key_of_get hm
      refine ⟨hs.files, fun id' hpin => ?_⟩
      simp only [Bool.false_eq_true, if_false] at hpin ⊢
      by_cases heq : id' = id
      · subst heq
        have hsticky : m.isSticky = false := by simpa using hpin
        exact ⟨{ m with isSticky := !m.isSticky }, by simp [Table.get_update, hm, hid], by simp [hsticky]⟩
      · obtain ⟨m', hm', hsticky'⟩ := hs.chats id' (by simpa [heq] using hpin)
        have hid' : m'.id = id' := Table.key_of_get hm'
        exact ⟨m', by simp [Table.get_update, hm', hid', heq], hsticky'⟩

/-! ### Deletion and purge -/

theorem pinnedFiles_deleteFile {id id' : String} {bytes : Bytes} :
    (s.deleteFile f id).pinnedFiles id' = some bytes ↔
      id' ≠ id ∧ s.pinnedFiles id' = some bytes := by
  by_cases heq : id' = id <;> simp [deleteFile, heq]

theorem retained_deleteFile (hs : s.Retained) (id : String) :
    s.Spares p (.deleteFile id, f) ↔ (s.step p (.deleteFile id, f)).Retained := by
  show _ ↔ (s.deleteFile f id).Retained
  cases hrow : s.storage.filesBundles.get id with
  | none =>
    refine iff_of_true (fun row h => by rw [hrow] at h; cases h) ⟨fun id' bytes hpin => ?_, ?_⟩
    · simp only [deleteFile, InternalStorage.deleteFileBundle_missing hrow]
      exact hs.files id' bytes (pinnedFiles_deleteFile.mp hpin).2
    · simp only [deleteFile, InternalStorage.deleteFileBundle_missing hrow]
      exact hs.chats
  | some row =>
    have hdisk := InternalStorage.deleteFileBundle_disk f hrow
    have hget (id' : String) (hne : id' ≠ id) :
        (s.storage.deleteFileBundle f id).2.filesBundles.get id' = s.storage.filesBundles.get id' := by
      rw [InternalStorage.deleteFileBundle_get, if_neg fun h => hne h.1]
    constructor
    · intro hspares
      refine ⟨fun id' bytes hpin => ?_, fun id' hpin => ?_⟩
      · obtain ⟨hne, hpin⟩ := pinnedFiles_deleteFile.mp hpin
        obtain ⟨row', hrow', hsticky, hbytes⟩ := hs.files id' bytes hpin
        refine ⟨row', (hget id' hne).trans hrow', hsticky, (hdisk _).trans ?_⟩
        rw [if_neg, hbytes]
        rintro ⟨heq, hstuck⟩
        exact hspares row hrow (heq ▸ hstuck) id' bytes hne ⟨hpin, row', hrow', heq⟩
      · simp only [deleteFile, InternalStorage.deleteFileBundle_chats]
        exact hs.chats id' hpin
    · rintro hretained row' hrow' hstuck id' bytes hne ⟨hpin, row'', hrow'', heq⟩
      obtain rfl : row = row' := by simpa [hrow] using hrow'
      obtain ⟨row₁, hrow₁, -, hbytes⟩ :=
        hretained.files id' bytes (pinnedFiles_deleteFile.mpr ⟨hne, hpin⟩)
      have hkept := (hget id' hne).symm.trans hrow₁
      rw [hrow''] at hkept
      cases hkept
      have hgone := (hdisk _).symm.trans hbytes
      rw [if_pos ⟨heq, heq ▸ hstuck⟩] at hgone
      cases hgone

theorem retained_purge (hs : s.Retained) (nowMs : Int64) :
    s.Spares p (.purge nowMs, f) ↔ (s.step p (.purge nowMs, f)).Retained := by
  have hrows {id : String} {row : FileBundleRecord} (hrow : s.storage.filesBundles.get id = some row)
      (hsticky : row.isSticky = true) :
      (s.storage.purgeExpired f nowMs).2.filesBundles.get id = some row :=
    InternalStorage.purgeExpired_files.mpr ⟨hrow, .inr (by simp [hsticky])⟩
  have hdisk := InternalStorage.purgeExpired_disk s.storage f nowMs
  constructor
  · intro hspares
    refine ⟨fun id bytes hpin => ?_, fun id hpin => ?_⟩
    · obtain ⟨row, hrow, hsticky, hbytes⟩ := hs.files id bytes hpin
      refine ⟨row, hrows hrow hsticky, hsticky, (hdisk _).trans ?_⟩
      rw [if_neg, hbytes]
      rintro ⟨⟨row', hmem, heq⟩, hstuck⟩
      exact hspares row' hmem (heq ▸ hstuck) id bytes ⟨hpin, row, hrow, heq.symm⟩
    · obtain ⟨m, hm, hsticky⟩ := hs.chats id hpin
      exact ⟨m, InternalStorage.purgeExpired_chats.mpr ⟨hm, .inr (by simp [hsticky])⟩, hsticky⟩
  · rintro hretained row' hmem hstuck id bytes ⟨hpin, row, hrow, heq⟩
    obtain ⟨row₀, hrow₀, hsticky, -⟩ := hs.files id bytes hpin
    obtain rfl : row = row₀ := by simpa [hrow] using hrow₀
    obtain ⟨row₁, hrow₁, -, hbytes⟩ := hretained.files id bytes hpin
    obtain rfl : row = row₁ := Option.some.inj ((hrows hrow hsticky).symm.trans hrow₁)
    have hgone := (hdisk row.payloadPath).symm.trans hbytes
    rw [if_pos ⟨⟨row', hmem, heq.symm⟩, heq ▸ hstuck⟩] at hgone
    cases hgone

/-! ### Reading -/

theorem retained_markFileRead (hs : s.Retained) (id : String) :
    (s.step p (.markFileRead id, f)).Retained := by
  simp only [step, InternalStorage.markFileRead]
  split
  · exact hs
  · refine ⟨fun id' bytes hpin => ?_, hs.chats⟩
    obtain ⟨row, hrow, hsticky, hbytes⟩ := hs.files id' bytes hpin
    refine ⟨if row.id = id then { row with isRead := true } else row, ?_, ?_, ?_⟩
    · simp [Except.toOption, Table.get_update, hrow]
    · split <;> exact hsticky
    · split <;> exact hbytes

theorem retained_markConversationRead (hs : s.Retained) (peer : String) :
    (s.step p (.markConversationRead peer, f)).Retained := by
  simp only [step, InternalStorage.markConversationRead]
  split
  · exact hs
  · refine ⟨hs.files, fun id hpin => ?_⟩
    obtain ⟨m, hm, hsticky⟩ := hs.chats id hpin
    simp only [Except.toOption, Option.getD_some, Table.get_update, hm, Option.map_some]
    refine ⟨_, rfl, ?_⟩
    split <;> exact hsticky

/-- What is sticky survives an action that spares it, and only that. -/
theorem spares_iff (hs : s.Retained) (act : Action × Faults) :
    s.Spares p act ↔ (s.step p act).Retained := by
  obtain ⟨action, f⟩ := act
  cases action with
  | deliverFile data now => exact retained_deliverFile hs data now
  | deliverChat data now => exact retained_deliverChat hs data now
  | toggleFile id => exact retained_toggleFile hs id
  | toggleChat id => exact iff_of_true trivial (retained_toggleChat hs id)
  | deleteFile id => exact retained_deleteFile hs id
  | markFileRead id => exact iff_of_true trivial (retained_markFileRead hs id)
  | markConversationRead peer => exact iff_of_true trivial (retained_markConversationRead hs peer)
  | purge nowMs => exact retained_purge hs nowMs

/-! ### Runs without collisions -/

variable (p) in
/-- The path of the file that the action writes, with the id of its bundle. -/
def Named (filesDir : String) (act : Action × Faults) (path id : String) : Prop :=
  ∃ data now primary payload, act.1 = .deliverFile data now ∧
    deliveredBundle p data = some (primary, payload) ∧ p.toKey primary = id ∧
    FilesService.payloadPath p filesDir id payload = path

variable (p) in
/-- The action delivers nothing that is sticky already, and neither its write nor the database fails
half way. -/
def Undisturbed (s : Station) (act : Action × Faults) : Prop :=
  act.2.database = false ∧ (∀ written, act.2.write ≠ .cut written) ∧
    match act.1 with
    | .deliverFile data _ => ∀ primary payload, deliveredBundle p data = some (primary, payload) →
        s.pinnedFiles (p.toKey primary) = none
    | .deliverChat data _ => ∀ primary payload, deliveredBundle p data = some (primary, payload) →
        s.pinnedChats (p.toKey primary) = false
    | _ => True

variable (p) in
/-- Every row has its payload at a path that its own bundle was given by one of the actions. -/
structure Linked (filesDir : String) (acts : List (Action × Faults)) (s : Station) : Prop where
  dir : s.storage.filesDir = filesDir
  payload : ∀ id row, s.storage.filesBundles.get id = some row →
    s.storage.disk row.payloadPath = some (s.delivered id)
  named : ∀ id row, s.storage.filesBundles.get id = some row →
    ∃ act ∈ acts, Named p filesDir act row.payloadPath id

variable {filesDir : String} {acts : List (Action × Faults)}

theorem Linked.of_kept {s' : Station} (hs : s.Linked p filesDir acts)
    (hdir : s'.storage.filesDir = s.storage.filesDir) (hdelivered : s'.delivered = s.delivered)
    (hkept : ∀ id row', s'.storage.filesBundles.get id = some row' →
      ∃ row, s.storage.filesBundles.get id = some row ∧ row'.payloadPath = row.payloadPath ∧
        s'.storage.disk row.payloadPath = s.storage.disk row.payloadPath) :
    s'.Linked p filesDir acts := by
  refine ⟨hdir.trans hs.dir, fun id row' hrow' => ?_, fun id row' hrow' => ?_⟩
  · obtain ⟨row, hrow, hpath, hdisk⟩ := hkept id row' hrow'
    rw [hpath, hdisk, hdelivered]
    exact hs.payload id row hrow
  · obtain ⟨row, hrow, hpath, -⟩ := hkept id row' hrow'
    rw [hpath]
    exact hs.named id row hrow

/-- Two files with different ids have different paths. -/
def Distinct (p : Platform E) (filesDir : String) (acts : List (Action × Faults)) : Prop :=
  ∀ act ∈ acts, ∀ act' ∈ acts, ∀ path id id', Named p filesDir act path id →
    Named p filesDir act' path id' → id = id'

theorem Linked.id_eq (hs : s.Linked p filesDir acts) (hdistinct : Distinct p filesDir acts)
    {id id' : String} {row row' : FileBundleRecord} (hrow : s.storage.filesBundles.get id = some row)
    (hrow' : s.storage.filesBundles.get id' = some row') (hpath : row.payloadPath = row'.payloadPath) :
    id = id' := by
  obtain ⟨act, hact, hnamed⟩ := hs.named id row hrow
  obtain ⟨act', hact', hnamed'⟩ := hs.named id' row' hrow'
  exact hdistinct act hact act' hact' _ id id' hnamed (hpath ▸ hnamed')

theorem linked_step (hs : s.Linked p filesDir acts) (hdistinct : Distinct p filesDir acts)
    {act : Action × Faults} (hact : act ∈ acts) (hquiet : s.Undisturbed p act) :
    (s.step p act).Linked p filesDir acts := by
  obtain ⟨action, f⟩ := act
  obtain ⟨hdatabase, hcut, hfresh⟩ := hquiet
  change f.database = false at hdatabase
  cases action with
  | deliverFile data now =>
    cases hdelivered : deliveredBundle p data with
    | none =>
      simp only [step, deliverFile, hdelivered,
        FilesService.handleDelivered_ignored s.storage f now hdelivered]
      exact ⟨hs.dir, hs.payload, hs.named⟩
    | some bundle =>
      obtain ⟨primary, payload⟩ := bundle
      have hdir := (FilesService.handleDelivered_chats (p := p) s.storage f now data).1
      have hget := FilesService.handleDelivered_get s.storage f now hdelivered
      have hdisk := FilesService.handleDelivered_disk s.storage f now hdelivered
      rw [hs.dir] at hdisk
      cases hwrite : f.write with
      | cut written => exact absurd hwrite (hcut written)
      | refused =>
        refine hs.of_kept hdir ?_ fun id row hrow => ⟨row, ?_, rfl, ?_⟩
        · simp [step, deliverFile, hdelivered, hwrite]
        · exact (hget id).symm.trans hrow |>.symm.trans (by simp [hwrite]) |>.symm
        · refine (hdisk _).trans ?_
          simp [hwrite, Write.left]
      | done =>
        have hkey (id : String) : (s.step p (.deliverFile data now, f)).delivered id =
            if p.toKey primary = id then payload else s.delivered id := by
          simp [step, deliverFile, hdelivered, hwrite, hdatabase, Function.update_apply, eq_comm]
        have hnamed : Named p filesDir (.deliverFile data now, f)
            (FilesService.payloadPath p filesDir (p.toKey primary) payload) (p.toKey primary) := ⟨data, now, primary, payload, rfl, hdelivered, rfl, rfl⟩
        refine ⟨hdir.trans hs.dir, fun id row hrow => ?_, fun id row hrow => ?_⟩
        · have hrow := (hget id).symm.trans hrow
          refine (hdisk _).trans (Eq.trans ?_ (congrArg some (hkey id)).symm)
          split at hrow
          · next hin =>
            cases hrow
            refine (if_pos (by rw [← hs.dir]; rfl)).trans ?_
            rw [hwrite, if_pos hin.2.2]
            rfl
          · next hin =>
            have hne : p.toKey primary ≠ id := fun heq => hin ⟨hwrite, hdatabase, heq⟩
            rw [if_neg, if_neg hne]
            · exact hs.payload id row hrow
            -- the row has a path of its own
            · intro heq
              obtain ⟨act', hact', hnamed'⟩ := hs.named id row hrow
              exact hne (hdistinct _ hact act' hact' _ _ _ hnamed (heq ▸ hnamed'))
        · have hrow := (hget id).symm.trans hrow
          split at hrow
          · next hin =>
            cases hrow
            obtain ⟨-, -, rfl⟩ := hin
            rw [hs.dir]
            exact ⟨_, hact, hnamed⟩
          · exact hs.named id row hrow
  | deliverChat data now =>
    have hsame := ChatService.handleDelivered_files (p := p) s.storage f now data
    refine hs.of_kept hsame.1 rfl fun id row hrow => ⟨row, hsame.2.1 ▸ hrow, rfl, ?_⟩
    exact congrFun hsame.2.2 _
  | toggleFile id =>
    show (s.toggleFile f id).Linked p filesDir acts
    unfold toggleFile InternalStorage.toggleFileSticky
    cases hrow : s.storage.filesBundles.get id with
    | none => exact hs
    | some row =>
      simp only [hdatabase, Bool.false_eq_true, if_false]
      refine hs.of_kept rfl rfl fun id' row' hrow' => ?_
      simp only [Table.get_update, Option.map_eq_some_iff] at hrow'
      obtain ⟨row₀, hrow₀, rfl⟩ := hrow'
      refine ⟨row₀, hrow₀, ?_, rfl⟩
      split <;> rfl
  | toggleChat id =>
    show (s.toggleChat f id).Linked p filesDir acts
    unfold toggleChat InternalStorage.toggleChatSticky
    cases s.storage.chatMessages.get id with
    | none => exact hs
    | some m =>
      simp only [hdatabase, Bool.false_eq_true, if_false]
      exact ⟨hs.dir, hs.payload, hs.named⟩
  | deleteFile id =>
    show (s.deleteFile f id).Linked p filesDir acts
    cases hrow : s.storage.filesBundles.get id with
    | none =>
      simp only [deleteFile, InternalStorage.deleteFileBundle_missing hrow]
      exact ⟨hs.dir, hs.payload, hs.named⟩
    | some row =>
      refine hs.of_kept ?_ rfl fun id' row' hrow' => ?_
      · simp only [deleteFile, InternalStorage.deleteFileBundle, hrow, hdatabase]
        rfl
      · have hget := (InternalStorage.deleteFileBundle_get s.storage f id id').symm.trans hrow'
        split at hget
        · cases hget
        · next hne =>
          refine ⟨row', hget, rfl, (InternalStorage.deleteFileBundle_disk f hrow _).trans (if_neg ?_)⟩
          rintro ⟨heq, -⟩
          exact hne ⟨hs.id_eq hdistinct hget hrow heq, hdatabase⟩
  | markFileRead id =>
    simp only [step, InternalStorage.markFileRead, hdatabase, Bool.false_eq_true, if_false]
    refine hs.of_kept rfl rfl fun id' row' hrow' => ?_
    simp only [Except.toOption, Option.getD_some, Table.get_update, Option.map_eq_some_iff] at hrow'
    obtain ⟨row₀, hrow₀, rfl⟩ := hrow'
    refine ⟨row₀, hrow₀, ?_, rfl⟩
    split <;> rfl
  | markConversationRead peer =>
    simp only [step, InternalStorage.markConversationRead, hdatabase, Bool.false_eq_true, if_false]
    exact ⟨hs.dir, hs.payload, hs.named⟩
  | purge nowMs =>
    refine hs.of_kept ?_ rfl fun id row hrow => ?_
    · simp only [step, InternalStorage.purgeExpired, hdatabase]
      rfl
    · obtain ⟨hget, hkept⟩ := InternalStorage.purgeExpired_files.mp hrow
      refine ⟨row, hget, rfl, (InternalStorage.purgeExpired_disk s.storage f nowMs _).trans (if_neg ?_)⟩
      rintro ⟨⟨row', hmem, heq⟩, -⟩
      obtain ⟨hget', hexpired⟩ := InternalStorage.mem_expiredFiles.mp hmem
      have hid := hs.id_eq hdistinct hget' hget heq
      rw [hid, hget] at hget'
      cases hget'
      simp [hdatabase, hexpired] at hkept

/-- With names that are distinct, all that an action must not meet is a sticky item delivered again. -/
theorem spares_of_linked (hs : s.Linked p filesDir acts) (hretained : s.Retained)
    (hdistinct : Distinct p filesDir acts) {act : Action × Faults} (hact : act ∈ acts)
    (hquiet : s.Undisturbed p act) : s.Spares p act := by
  obtain ⟨action, f⟩ := act
  obtain ⟨hdatabase, hcut, hfresh⟩ := hquiet
  cases action with
  | deliverFile data now =>
    intro primary payload hdelivered
    refine ⟨fun _ _ => hfresh primary payload hdelivered, ?_⟩
    rintro content - id bytes ⟨hpin, row, hrow, hpath⟩
    rw [hs.dir] at hpath
    obtain ⟨act', hact', hnamed'⟩ := hs.named id row hrow
    have hid := hdistinct _ hact act' hact' _ _ _
      ⟨data, now, primary, payload, rfl, hdelivered, rfl, rfl⟩ (hpath ▸ hnamed')
    rw [← hid, hfresh primary payload hdelivered] at hpin
    cases hpin
  | deliverChat data now => exact fun primary payload hdelivered _ => hfresh primary payload hdelivered
  | toggleFile id => exact fun _ row hrow _ => hs.payload id row hrow
  | toggleChat id => trivial
  | deleteFile id =>
    rintro row hrow - id' bytes hne ⟨-, row', hrow', hpath⟩
    exact hne (hs.id_eq hdistinct hrow' hrow hpath)
  | markFileRead id => trivial
  | markConversationRead peer => trivial
  | purge nowMs =>
    rintro row hmem - id bytes ⟨hpin, row', hrow', hpath⟩
    obtain ⟨hrow, hexpired⟩ := InternalStorage.mem_expiredFiles.mp hmem
    obtain ⟨row₀, hrow₀, hsticky, -⟩ := hretained.files id bytes hpin
    have hid := hs.id_eq hdistinct hrow' hrow hpath
    rw [← hid, hrow₀] at hrow
    cases hrow
    simp [hsticky] at hexpired

end Station

/-- Where bundles with different ids have files with different names, and nothing sticky is delivered
again, what is sticky is retained throughout a run. -/
theorem retained_of_distinct {E : Type} (p : Platform E) (filesDir : String)
    (disk : String → Option Bytes) {acts : List (Action × Faults)}
    (hdistinct : Station.Distinct p filesDir acts)
    (hquiet : Along (Station.step p) (Station.Undisturbed p) (.new filesDir disk) acts) :
    Along (Station.step p) (fun s act => (s.step p act).Retained) (.new filesDir disk) acts := by
  have hmem : Along (Station.step p) (fun _ act => act ∈ acts) (Station.new filesDir disk) acts :=
    along_of_forall_mem fun act hact _ => hact
  have hnew : (Station.new filesDir disk).Linked p filesDir acts ∧
      (Station.new filesDir disk).Retained := ⟨⟨rfl, nofun, nofun⟩, nofun, nofun⟩
  have hstep : ∀ (s : Station) (act : Action × Faults), s.Linked p filesDir acts ∧ s.Retained →
      act ∈ acts ∧ s.Undisturbed p act →
      (s.step p act).Linked p filesDir acts ∧ (s.step p act).Retained := by
    rintro s act ⟨hlinked, hretained⟩ ⟨hact, hundisturbed⟩
    have hspares := Station.spares_of_linked hlinked hretained hdistinct hact hundisturbed
    exact ⟨Station.linked_step hlinked hdistinct hact hundisturbed,
      (Station.spares_iff hretained act).mp hspares⟩
  exact (hmem.and hquiet).strengthen hstep (fun s act hs hact => (hstep s act hs hact).2) hnew

/-- What is sticky is retained throughout a run exactly if every action of the run spares it. -/
theorem retained_along_iff {E : Type} (p : Platform E) (filesDir : String)
    (disk : String → Option Bytes) (acts : List (Action × Faults)) :
    Along (Station.step p) (Station.Spares p) (.new filesDir disk) acts ↔
      Along (Station.step p) (fun s act => (s.step p act).Retained) (.new filesDir disk) acts := by
  have hnew : (Station.new filesDir disk).Retained := ⟨nofun, nofun⟩
  exact along_iff_invariant Station.Retained (fun s act hs => Station.spares_iff hs act) hnew

section Example

/-- A platform on which all octets are a bundle, with themselves as its payload. -/
def plainPlatform : Platform String where
  hardy :=
    { eidString := id
      parseEid := .ok
      parse := fun data => .ok
        ⟨data, ⟨⟨"dtn://f4jxq/files", ⟨some 0, 0⟩, none, 0, "dtn://stata/files", "dtn:none", 0⟩,
          [(payloadBlock, ⟨.payload, some data⟩)]⟩, []⟩
      build := fun _ => .error "unused"
      signBlock := fun _ _ _ _ _ => .error "unused"
      verifyAllBibs := fun _ _ => .ok ()
      beginPayloadVerification := fun _ _ => .ok []
      emit := fun _ => []
      tokens := fun _ => [] }
  isNull := fun eid => eid = "dtn:none"
  toKey := fun primary => primary.source
  rfc3339 := fun _ => ""
  isAlphanumeric := Char.isAlphanum
  lowercase := String.toLower
  fromUtf8Lossy := fun _ => ""
  parseJson := fun _ => none

/-- A file arrives, is made sticky, and arrives again. -/
def redelivery : List (Action × Faults) :=
  [(.deliverFile [1] 0, ⟨.done, fun _ => false, false⟩),
    (.toggleFile "dtn://f4jxq/files", ⟨.done, fun _ => false, false⟩),
    (.deliverFile [1] 0, ⟨.done, fun _ => false, false⟩)]

/-- The new row is not sticky. -/
theorem redelivery_unsets_sticky :
    ¬Along (Station.step plainPlatform) (fun s act => (s.step plainPlatform act).Retained)
      (.new "files" fun _ => none) redelivery := by
  rintro ⟨-, hpinned, hredelivered, -⟩
  obtain ⟨hfresh, -⟩ := (Station.spares_iff hpinned _).mpr hredelivered _ [1] rfl
  have hnone := hfresh rfl rfl
  revert hnone
  decide +kernel

end Example

end HdyUtils.Ham
