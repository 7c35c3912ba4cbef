import HdyUtils.Lib.Runs

/-! The coalesced range set of received and claimed extents (`range.rs`): a separated list of runs
of naturals.  The fast paths of `insert` give what its general path gives, which is `Runs.merge`. -/

namespace HdyUtils.Ltp

open Runs

/-- A half-open range of block offsets (`Range<u64>`). -/
abbrev Range := Run Nat

/-- Sorted, non-empty ranges with space between them. -/
structure RangeSet where
  runs : List Range
  separated : Separated runs

namespace RangeSet

instance : Membership Nat RangeSet := ⟨fun s x => Covers s.runs x⟩

theorem mem_def {s : RangeSet} {x : Nat} : x ∈ s ↔ Covers s.runs x := Iff.rfl

def new : RangeSet := ⟨[], .nil⟩

@[simp] theorem not_mem_new (x : Nat) : x ∉ new := not_covers_nil x

def overlap (a b : Range) : Nat := min a.stop b.stop - max a.start b.start

/-- The merging loop of `insert`, with the number of values not covered so far. -/
def absorbLoop (r : Range) (cur : Range) (newly : Nat) : List Range → Range × Nat × List Range
  | [] => (cur, newly, [])
  | run :: rest =>
    if run.start ≤ cur.stop then
      absorbLoop r ⟨min cur.start run.start, max cur.stop run.stop⟩ (newly - overlap run r) rest
    else (cur, newly, run :: rest)

/-- The runs after inserting a non-empty range, and the number of newly covered values. -/
def insertRuns (runs : List Range) (r : Range) : List Range × Nat :=
  match runs.getLast? with
  | none => ([r], r.stop - r.start)
  | some last =>
    if last.stop = r.start then (runs.dropLast ++ [⟨last.start, r.stop⟩], r.stop - r.start)
    else if last.stop < r.start then (runs ++ [r], r.stop - r.start)
    else if last.start ≤ r.start ∧ r.stop ≤ last.stop then (runs, 0)
    else
      let before := runs.takeWhile fun run => run.stop < r.start
      let after := runs.dropWhile fun run => run.stop < r.start
      let (cur, newly, rest) := absorbLoop r r (r.stop - r.start) after
      (before ++ cur :: rest, newly)

theorem absorbLoop_eq (r cur : Range) (newly : Nat) (l : List Range) :
    (absorbLoop r cur newly l).1 = (absorb cur l).1 ∧
      (absorbLoop r cur newly l).2.2 = (absorb cur l).2 := by
  induction l generalizing cur newly with
  | nil => exact ⟨rfl, rfl⟩
  | cons run rest ih =>
    rw [absorbLoop, absorb]
    split
    · exact ih _ _
    · exact ⟨rfl, rfl⟩

/-- Runs that end before `r` stay in front of what `r` is merged into. -/
theorem merge_append {init tail : List Range} {r : Range} (hinit : ∀ p ∈ init, p.stop < r.start)
    (htail : ∀ q ∈ tail.head?, ¬q.stop < r.start) :
    merge r (init ++ tail) = init ++ (absorb r tail).1 :: (absorb r tail).2 := by
  have htake : tail.takeWhile (fun q => decide (q.stop < r.start)) = [] := by
    cases tail with
    | nil => rfl
    | cons q tail => simpa using htail q (by simp)
  have hdrop : tail.dropWhile (fun q => decide (q.stop < r.start)) = tail := by
    cases tail with
    | nil => rfl
    | cons q tail => simpa using htail q (by simp)
  have hall : ∀ p ∈ init, decide (p.stop < r.start) = true := by simpa using hinit
  rw [merge, List.takeWhile_append_of_pos hall, List.dropWhile_append_of_pos hall, htake, hdrop,
    List.append_nil]

theorem insertRuns_eq_merge {runs : List Range} (hs : Separated runs) {r : Range}
    (hr : r.start < r.stop) : (insertRuns runs r).1 = merge r runs := by
  rcases List.eq_nil_or_concat runs with rfl | ⟨init, last, rfl⟩
  · rfl
  rw [List.concat_eq_append] at hs ⊢
  have hlast : last.start < last.stop := hs.nonempty last (by simp)
  have hinit : ∀ p ∈ init, p.stop < last.start := fun p hp =>
    (List.pairwise_append.mp hs.apart).2.2 p hp last (by simp)
  simp only [insertRuns, List.getLast?_concat, List.dropLast_concat]
  split
  · rename_i heq
    rw [merge_append (fun p hp => by have := hinit p hp; omega) (by simp; omega)]
    simp only [absorb, show last.start ≤ r.stop by omega, if_true]
    congr 3 <;> omega
  split
  · rename_i hlt
    have happ : merge r ((init ++ [last]) ++ []) = _ := merge_append
      (by simpa [or_imp, forall_and, hlt] using fun p hp => by have := hinit p hp; omega) (by simp)
    rw [List.append_nil] at happ
    rw [happ]
    rfl
  split
  · rename_i hin
    rw [merge_append (fun p hp => by have := hinit p hp; omega) (by simp; omega)]
    simp only [absorb, show last.start ≤ r.stop by omega, if_true]
    congr 2
    rw [Nat.min_eq_right hin.1, Nat.max_eq_right hin.2]
  · have hloop := absorbLoop_eq r r (r.stop - r.start)
      ((init ++ [last]).dropWhile fun run => run.stop < r.start)
    rw [merge, ← hloop.1, ← hloop.2]

/-- Inserts a range, coalescing the runs that it overlaps or touches. -/
def insert (s : RangeSet) (r : Range) : RangeSet :=
  if h : r.stop ≤ r.start then s
  else ⟨(insertRuns s.runs r).1, by
    rw [insertRuns_eq_merge s.separated (by omega)]
    exact separated_merge (by omega) s.separated⟩

/-- The number of values that `insert` newly covers. -/
def insertCount (s : RangeSet) (r : Range) : Nat :=
  if r.stop ≤ r.start then 0 else (insertRuns s.runs r).2

theorem mem_insert {s : RangeSet} {r : Range} {x : Nat} :
    x ∈ s.insert r ↔ x ∈ s ∨ r.start ≤ x ∧ x < r.stop := by
  unfold insert
  split
  · rename_i h
    rw [iff_self_or]
    omega
  · rename_i h
    show Covers (insertRuns s.runs r).1 x ↔ _
    rw [insertRuns_eq_merge s.separated (by omega), covers_merge (by omega) s.separated]
    rfl

def covers (s : RangeSet) (r : Range) : Bool := coversRun s.runs r

theorem covers_iff {s : RangeSet} {r : Range} :
    s.covers r = true ↔ ∀ x, r.start ≤ x → x < r.stop → x ∈ s := by
  rw [covers, coversRun_iff s.separated]
  exact ⟨fun h x h1 h2 => h x ⟨h1, h2⟩, fun h x hx => h x hx.1 hx.2⟩

theorem not_covers_iff {s : RangeSet} {r : Range} :
    s.covers r = false ↔ ∃ x, r.start ≤ x ∧ x < r.stop ∧ x ∉ s := by
  rw [← Bool.not_eq_true, covers_iff]
  push Not
  rfl

/-- The covered ranges inside `scope`, in ascending order. -/
def runsWithin (s : RangeSet) (scope : Range) : List Range := within s.runs scope

/-- The gaps inside `scope`, in ascending order. -/
def gaps (s : RangeSet) (scope : Range) : List Range := Runs.gaps s.runs scope

theorem mem_gaps_iff {s : RangeSet} {scope : Range} (h : scope.start < scope.stop) {x : Nat} :
    Covers (s.gaps scope) x ↔ scope.start ≤ x ∧ x < scope.stop ∧ x ∉ s := by
  rw [gaps, covers_gaps s.separated h, Run.Contains, and_assoc]
  rfl

theorem mem_runsWithin_iff {s : RangeSet} {scope : Range} {x : Nat} :
    Covers (s.runsWithin scope) x ↔ scope.start ≤ x ∧ x < scope.stop ∧ x ∈ s := by
  rw [runsWithin, covers_within s.separated, Run.Contains, and_assoc]
  rfl

end RangeSet

end HdyUtils.Ltp
