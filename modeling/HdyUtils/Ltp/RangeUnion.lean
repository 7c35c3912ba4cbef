import HdyUtils.Ltp.Range

/-! Insertion of a range is union (`range.rs`).  The count that `insert` returns is taken down from
the length of the range by its overlap with each run that the merging scan passes; the scan passes
every run that overlaps the range, so what is left is the number of values that no run covered, and
no subtraction goes below zero. -/

namespace HdyUtils.Ltp.RangeSet

open Runs

/-! ### The scan with its subtractions checked -/

/-- `absorbLoop`, which fails where `newly -= overlap` would go below zero. -/
def absorbChecked (r : Range) (cur : Range) (newly : Nat) :
    List Range → Option (Range × Nat × List Range)
  | [] => some (cur, newly, [])
  | run :: rest =>
    if run.start ≤ cur.stop then
      if overlap run r ≤ newly then
        absorbChecked r ⟨min cur.start run.start, max cur.stop run.stop⟩ (newly - overlap run r) rest
      else none
    else some (cur, newly, run :: rest)

/-- The general path of `insert` alone, without the fast paths before it. -/
def insertGeneral (runs : List Range) (r : Range) : Option (List Range × Nat) :=
  let before := runs.takeWhile fun run => run.stop < r.start
  let after := runs.dropWhile fun run => run.stop < r.start
  (absorbChecked r r (r.stop - r.start) after).map fun (cur, newly, rest) =>
    (before ++ cur :: rest, newly)

/-- Where no subtraction fails, the checked scan is the scan. -/
theorem absorbLoop_of_checked {r cur : Range} {newly : Nat} {l : List Range}
    {out : Range × Nat × List Range} (h : absorbChecked r cur newly l = some out) :
    absorbLoop r cur newly l = out := by
  induction l generalizing cur newly with
  | nil => exact Option.some.inj h
  | cons run rest ih =>
    rw [absorbChecked] at h
    rw [absorbLoop]
    split at h
    · rename_i htouch
      rw [if_pos htouch]
      split at h
      · exact ih h
      · cases h
    · rename_i htouch
      rw [if_neg htouch]
      exact Option.some.inj h

/-! ### What a list of runs leaves of a range -/

/-- How much of `r` the runs of a list overlap. -/
def overlaps (r : Range) (l : List Range) : Nat := (l.map (overlap · r)).sum

@[simp] theorem overlaps_nil (r : Range) : overlaps r [] = 0 := rfl

@[simp] theorem overlaps_cons (r q : Range) (l : List Range) :
    overlaps r (q :: l) = overlap q r + overlaps r l := rfl

theorem overlaps_append (r : Range) (l l' : List Range) :
    overlaps r (l ++ l') = overlaps r l + overlaps r l' := by
  simp [overlaps]

theorem overlap_eq_zero {q r : Range} (h : q.stop ≤ r.start ∨ r.stop ≤ q.start) :
    overlap q r = 0 := by
  unfold overlap
  omega

theorem overlaps_eq_zero {r : Range} {l : List Range}
    (h : ∀ q ∈ l, q.stop ≤ r.start ∨ r.stop ≤ q.start) : overlaps r l = 0 := by
  induction l with
  | nil => rfl
  | cons q l ih =>
    rw [overlaps_cons, overlap_eq_zero (h q (by simp)), ih fun p hp => h p (by simp [hp])]

/-- The values of `r` that no run of the list covers. -/
def missing (r : Range) (l : List Range) : Set Nat := {x | r.Contains x ∧ ¬Covers l x}

theorem missing_finite (r : Range) (l : List Range) : (missing r l).Finite :=
  (Set.finite_Ico r.start r.stop).subset fun _ hx => hx.1

theorem ncard_missing_nil (r : Range) : (missing r []).ncard = r.stop - r.start := by
  have hset : missing r [] = ↑(Finset.Ico r.start r.stop) := by
    ext x
    simp [missing, Run.Contains]
  rw [hset, Set.ncard_coe_finset, Nat.card_Ico]

/-- A run in front of a separated list covers its overlap with `r` and leaves the rest. -/
theorem ncard_missing_cons {q r : Range} {l : List Range} (hl : Separated (q :: l)) :
    (missing r l).ncard = overlap q r + (missing r (q :: l)).ncard := by
  obtain ⟨hq, hrest⟩ := hl.head
  have hset : missing r l =
      ↑(Finset.Ico (max q.start r.start) (min q.stop r.stop)) ∪ missing r (q :: l) := by
    ext x
    simp only [missing, Run.Contains, covers_cons, Set.mem_ofPred_eq, Set.mem_union, Finset.coe_Ico,
      Set.mem_Ico, max_le_iff, lt_min_iff]
    have hout : q.start ≤ x → x < q.stop → ¬Covers l x := by
      rintro _ hx ⟨p, hp, hle, _⟩
      have := hrest p hp
      omega
    tauto
  have hdisj : Disjoint (↑(Finset.Ico (max q.start r.start) (min q.stop r.stop)) : Set Nat)
      (missing r (q :: l)) := by
    rw [Set.disjoint_left]
    rintro x hx ⟨_, hn⟩
    simp only [Finset.coe_Ico, Set.mem_Ico, max_le_iff, lt_min_iff] at hx
    exact hn ((covers_cons ..).mpr (.inl ⟨hx.1.1, hx.2.1⟩))
  rw [hset, Set.ncard_union_eq hdisj (Finset.finite_toSet _) (missing_finite r _),
    Set.ncard_coe_finset, Nat.card_Ico]
  rfl

theorem overlaps_add_missing {r : Range} {l : List Range} (hl : Separated l) :
    overlaps r l + (missing r l).ncard = r.stop - r.start := by
  induction l with
  | nil => rw [ncard_missing_nil, overlaps_nil, Nat.zero_add]
  | cons q l ih =>
    have hcons := ncard_missing_cons (r := r) hl
    have htail := ih hl.tail
    rw [overlaps_cons]
    omega

/-! ### The scan -/

/-- The scan never subtracts too much, and the runs where it stops overlap nothing of `r`. -/
theorem absorbChecked_eq {r cur : Range} {newly : Nat} {l : List Range} (hl : Separated l)
    (hstop : r.stop ≤ cur.stop) (hnewly : overlaps r l ≤ newly) :
    absorbChecked r cur newly l =
      some ((absorb cur l).1, newly - overlaps r l, (absorb cur l).2) := by
  induction l generalizing cur newly with
  | nil => rfl
  | cons run rest ih =>
    obtain ⟨hrun, hrest⟩ := hl.head
    rw [overlaps_cons] at hnewly
    rw [absorbChecked, absorb, overlaps_cons]
    split
    · rw [if_pos (by omega), ih hl.tail (hstop.trans (le_max_left _ _)) (by omega), Nat.sub_sub]
    · have hzero : overlaps r rest = 0 := by
        apply overlaps_eq_zero
        intro q hq
        have := hrest q hq
        omega
      rw [overlap_eq_zero (by omega), hzero]
      rfl

/-- The runs that end before `r` overlap nothing of it. -/
theorem overlaps_dropWhile (runs : List Range) (r : Range) :
    overlaps r (runs.dropWhile fun run => run.stop < r.start) = overlaps r runs := by
  have hsplit := List.takeWhile_append_dropWhile
    (p := fun run : Range => decide (run.stop < r.start)) (l := runs)
  have hbefore : overlaps r (runs.takeWhile fun run => run.stop < r.start) = 0 := by
    apply overlaps_eq_zero
    intro q hq
    have := List.mem_takeWhile_imp hq
    simp only [decide_eq_true_eq] at this
    omega
  conv_rhs => rw [← hsplit, overlaps_append, hbefore, Nat.zero_add]

/-- What the scan of the general path returns. -/
theorem absorbChecked_dropWhile {runs : List Range} (hs : Separated runs) (r : Range) :
    absorbChecked r r (r.stop - r.start) (runs.dropWhile fun run => run.stop < r.start) =
      some ((absorb r (runs.dropWhile fun run => run.stop < r.start)).1, (missing r runs).ncard,
        (absorb r (runs.dropWhile fun run => run.stop < r.start)).2) := by
  have hcount := overlaps_add_missing (r := r) hs
  have hover := overlaps_dropWhile runs r
  rw [absorbChecked_eq (hs.dropWhile _) le_rfl (by omega), hover,
    show r.stop - r.start - overlaps r runs = (missing r runs).ncard by omega]

theorem insertGeneral_eq {runs : List Range} (hs : Separated runs) (r : Range) :
    insertGeneral runs r = some (merge r runs, (missing r runs).ncard) := by
  rw [insertGeneral, absorbChecked_dropWhile hs]
  rfl

/-! ### The fast paths -/

theorem insertRuns_count {runs : List Range} (hs : Separated runs) {r : Range}
    (hr : r.start < r.stop) : (insertRuns runs r).2 = (missing r runs).ncard := by
  have hcount := overlaps_add_missing (r := r) hs
  rcases List.eq_nil_or_concat runs with rfl | ⟨init, last, rfl⟩
  · exact (ncard_missing_nil r).symm
  rw [List.concat_eq_append] at hs hcount ⊢
  have hinit : ∀ p ∈ init, p.stop < last.start := fun p hp =>
    (List.pairwise_append.mp hs.apart).2.2 p hp last (by simp)
  have hlast : last.start < last.stop := hs.nonempty last (by simp)
  have hbelow : ∀ b, last.start ≤ b → b ≤ r.start → overlaps r init = 0 := by
    intro b hb hbr
    apply overlaps_eq_zero
    intro q hq
    have := hinit q hq
    omega
  rw [overlaps_append, overlaps_cons, overlaps_nil] at hcount
  simp only [insertRuns, List.getLast?_concat, List.dropLast_concat]
  split
  · rename_i heq
    rw [hbelow last.start le_rfl (by omega), overlap_eq_zero (by omega)] at hcount
    omega
  split
  · rename_i hlt
    rw [hbelow last.start le_rfl (by omega), overlap_eq_zero (by omega)] at hcount
    omega
  split
  · rename_i hin
    have hall : overlap last r = r.stop - r.start := by
      unfold overlap
      omega
    rw [hbelow last.start le_rfl hin.1, hall] at hcount
    omega
  · have hloop := absorbLoop_of_checked (absorbChecked_dropWhile hs r)
    rw [hloop]

/-! ### Insertion -/

/-- What `insert` newly covers. -/
theorem mem_missing_iff {s : RangeSet} {r : Range} {x : Nat} :
    x ∈ missing r s.runs ↔ x ∈ s.insert r ∧ x ∉ s := by
  rw [mem_insert, mem_def]
  simp only [missing, Run.Contains, Set.mem_ofPred_eq]
  tauto

theorem insertCount_eq (s : RangeSet) (r : Range) :
    s.insertCount r = {x | x ∈ s.insert r ∧ x ∉ s}.ncard := by
  have hset : {x | x ∈ s.insert r ∧ x ∉ s} = missing r s.runs := Set.ext fun _ => mem_missing_iff.symm
  rw [hset, insertCount]
  split
  · rename_i hempty
    have hcount := overlaps_add_missing (r := r) s.separated
    omega
  · exact insertRuns_count s.separated (by omega)

theorem insert_of_empty {s : RangeSet} {r : Range} (h : r.stop ≤ r.start) : s.insert r = s :=
  dif_pos h

/-- The fast paths of `insert` give what its general path gives. -/
theorem insertGeneral_eq_insert {s : RangeSet} {r : Range} (hr : r.start < r.stop) :
    insertGeneral s.runs r = some ((s.insert r).runs, s.insertCount r) := by
  have hruns : (s.insert r).runs = merge r s.runs := by
    rw [insert, dif_neg (by omega)]
    exact insertRuns_eq_merge s.separated hr
  have hcount : s.insertCount r = (missing r s.runs).ncard := by
    rw [insertCount, if_neg (by omega)]
    exact insertRuns_count s.separated hr
  rw [hruns, hcount]
  exact insertGeneral_eq s.separated r

/-- Insertion keeps the runs separated and adds exactly the range, what it returns is the number of
values added, its fast paths and its general path agree (and no subtraction of the latter goes below
zero), and `covers` decides inclusion. -/
theorem insert_unites (s : RangeSet) (r : Range) :
    (∀ run ∈ (s.insert r).runs, run.start < run.stop) ∧
      ((s.insert r).runs.Pairwise fun a b => a.stop < b.start) ∧
      (∀ x, x ∈ s.insert r ↔ x ∈ s ∨ r.start ≤ x ∧ x < r.stop) ∧
      (r.stop ≤ r.start → s.insert r = s) ∧
      s.insertCount r = {x | x ∈ s.insert r ∧ x ∉ s}.ncard ∧
      (r.start < r.stop → insertGeneral s.runs r = some ((s.insert r).runs, s.insertCount r)) ∧
      ∀ q, s.covers q = true ↔ ∀ x, q.start ≤ x → x < q.stop → x ∈ s :=
  ⟨(s.insert r).separated.nonempty, (s.insert r).separated.apart, fun _ => mem_insert,
    insert_of_empty, insertCount_eq s r, insertGeneral_eq_insert, fun _ => covers_iff⟩

end HdyUtils.Ltp.RangeSet
