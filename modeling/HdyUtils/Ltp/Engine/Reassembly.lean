import HdyUtils.Ltp.Engine.Session
import HdyUtils.Lib.Sums

/-! Reassembly of the red part: what storing a red segment changes in a receive session, and the
bounds on the data that it holds. -/

namespace HdyUtils.Ltp.RecvSession

/-- The sessions differ in the received data only. -/
def UpToData (s s' : RecvSession) : Prop :=
  ∃ redBuf redReceived sparseRed totalReceivedBytes maxRedEnd,
    s' = { s with redBuf, redReceived, sparseRed, totalReceivedBytes, maxRedEnd }

namespace UpToData

variable {s s' s'' : RecvSession}

theorem refl (s : RecvSession) : s.UpToData s := ⟨_, _, _, _, _, rfl⟩

theorem trans (h : s.UpToData s') (h' : s'.UpToData s'') : s.UpToData s'' := by
  obtain ⟨_, _, _, _, _, rfl⟩ := h
  obtain ⟨b, r, p, t, m, rfl⟩ := h'
  exact ⟨b, r, p, t, m, rfl⟩

theorem delivered_eq (h : s.UpToData s') : s'.redDelivered = s.redDelivered := by
  obtain ⟨_, _, _, _, _, rfl⟩ := h
  rfl

theorem reports_eq (h : s.UpToData s') : s'.reports = s.reports := by
  obtain ⟨_, _, _, _, _, rfl⟩ := h
  rfl

end UpToData

/-! ### Moving the sparse segments -/

/-- The session once a sparse segment has moved to `redBuf`. -/
def joined (s : RecvSession) (offset : Nat) (data : Bytes) : RecvSession :=
  { s with
    sparseRed := s.sparseRed.erase offset
    totalReceivedBytes := s.totalReceivedBytes - data.length
    redBuf := writeAt s.redBuf offset data }

theorem firstSparse_some {s : RecvSession} {offset : Nat} {data : Bytes}
    (h : s.firstSparse = some (offset, data)) : s.sparseRed[offset]? = some data := by
  rw [firstSparse] at h
  exact Std.TreeMap.mem_toList_iff_getElem?_eq_some.mp (List.mem_of_head? h)

/-- What every moved segment keeps holds once all of them are moved. -/
theorem connectSparse_keeps {s : RecvSession} {P : RecvSession → Prop}
    (hjoined : ∀ (s : RecvSession) (offset : Nat) (data : Bytes), P s →
      s.sparseRed[offset]? = some data → offset ≤ s.redBuf.length → P (s.joined offset data))
    (fuel : Nat) (h : P s) : P (connectSparse fuel s) := by
  induction fuel generalizing s with
  | zero => exact h
  | succ fuel ih =>
    rw [connectSparse]
    split
    · next offset data hfirst =>
      split
      · next hreached =>
        apply ih
        exact hjoined s offset data h (firstSparse_some hfirst) hreached
      · exact h
    · exact h

theorem connectSparse_upToData (fuel : Nat) (s : RecvSession) :
    s.UpToData (connectSparse fuel s) :=
  connectSparse_keeps (fun _ _ _ h _ _ => h.trans ⟨_, _, _, _, _, rfl⟩) fuel (.refl s)

theorem insertRed_upToData (s : RecvSession) (offset : Nat) (data : Bytes) (maxBlockSize : Nat) :
    s.UpToData (s.insertRed offset data maxBlockSize).1 := by
  simp only [insertRed]
  split
  · exact .refl s
  split
  · exact .refl s
  split
  · exact .refl s
  split
  · exact UpToData.trans ⟨_, _, _, _, _, rfl⟩ (connectSparse_upToData _ _)
  split <;> exact ⟨_, _, _, _, _, rfl⟩

/-! ### Bounds -/

/-- The octets held in sparse segments. -/
def sparseBytes (s : RecvSession) : Nat := Maps.total List.length s.sparseRed

/-- The data that the session holds stays within a block of `maxBlockSize` octets. -/
structure Fits (maxBlockSize : Nat) (s : RecvSession) : Prop where
  buffered : s.redBuf.length ≤ maxBlockSize
  entries : ∀ (offset : Nat) (data : Bytes), s.sparseRed[offset]? = some data →
    offset + data.length ≤ maxBlockSize
  counted : s.sparseBytes ≤ s.totalReceivedBytes
  limited : s.totalReceivedBytes ≤ maxBlockSize

/-- The counter of the sparse octets does not overflow when `data` is added.  The quota sees to it
unless it is the greatest `u64`, which a saturating sum never exceeds. -/
def Counts (maxBlockSize : Nat) (s : RecvSession) (data : Bytes) : Prop :=
  maxBlockSize < u64Max ∨ s.totalReceivedBytes + data.length ≤ u64Max

instance (maxBlockSize : Nat) (s : RecvSession) (data : Bytes) :
    Decidable (s.Counts maxBlockSize data) :=
  inferInstanceAs (Decidable (_ ∨ _))

variable {s s' : RecvSession} {maxBlockSize : Nat}

theorem length_writeAt (buf : Bytes) (start : Nat) (data : Bytes) :
    (writeAt buf start data).length = max buf.length (start + data.length) := by
  simp only [writeAt]
  split <;> simp <;> omega

theorem Fits.congr (h : s.Fits maxBlockSize) (hbuf : s'.redBuf.length ≤ s.redBuf.length)
    (hsparse : s'.sparseRed = s.sparseRed)
    (htotal : s'.totalReceivedBytes = s.totalReceivedBytes) : s'.Fits maxBlockSize where
  buffered := hbuf.trans h.buffered
  entries := by
    rw [hsparse]
    exact h.entries
  counted := by
    rw [sparseBytes, hsparse, htotal]
    exact h.counted
  limited := by
    rw [htotal]
    exact h.limited

theorem Fits.joined (h : s.Fits maxBlockSize) {offset : Nat} {data : Bytes}
    (hentry : s.sparseRed[offset]? = some data) : (s.joined offset data).Fits maxBlockSize := by
  have hcounted := h.counted
  have hlimited := h.limited
  have herase := Maps.total_erase List.length hentry
  refine ⟨?_, ?_, ?_, ?_⟩
  · have hend := h.entries offset data hentry
    have hbuf := h.buffered
    simp only [RecvSession.joined, length_writeAt]
    omega
  · intro o d ho
    simp only [RecvSession.joined, Maps.getElem?_erase] at ho
    split at ho
    · cases ho
    · exact h.entries o d ho
  · simp only [sparseBytes, RecvSession.joined] at hcounted ⊢
    omega
  · show s.totalReceivedBytes - data.length ≤ maxBlockSize
    omega

theorem Fits.connectSparse (fuel : Nat) (h : s.Fits maxBlockSize) :
    (connectSparse fuel s).Fits maxBlockSize :=
  connectSparse_keeps (fun _ _ _ hfits hentry _ => hfits.joined hentry) fuel h

theorem Fits.insertRed (h : s.Fits maxBlockSize) (offset : Nat) {data : Bytes}
    (hcounts : s.Counts maxBlockSize data) :
    (s.insertRed offset data maxBlockSize).1.Fits maxBlockSize := by
  simp only [RecvSession.insertRed]
  split
  · exact h
  split
  · exact h
  next hend =>
  split
  · exact h
  split
  · apply Fits.connectSparse
    refine ⟨?_, h.entries, h.counted, h.limited⟩
    have hbuf := h.buffered
    simp only [length_writeAt]
    omega
  split
  · exact h.congr le_rfl rfl rfl
  next hquota =>
  have hcounted := h.counted
  have hlimited := h.limited
  have hinsert := Maps.total_insert_add List.length s.sparseRed offset data
  -- The sum is exact: it is below the quota, or it is assumed not to overflow.
  have hexact : (s.totalReceivedBytes + data.length) % 2 ^ 64 = s.totalReceivedBytes + data.length ∧
      s.totalReceivedBytes + data.length ≤ maxBlockSize := by
    simp only [Counts, satAdd, u64Max] at hcounts hquota
    omega
  refine ⟨h.buffered, ?_, ?_, ?_⟩
  · intro o d ho
    simp only [Maps.getElem?_insert] at ho
    split at ho
    · cases ho
      omega
    · exact h.entries o d ho
  · simp only [sparseBytes] at hcounted ⊢
    omega
  · show (s.totalReceivedBytes + data.length) % 2 ^ 64 ≤ maxBlockSize
    omega

end HdyUtils.Ltp.RecvSession
