import HdyUtils.Lib.Lists

/-! Text: prefixes, trimming and splitting at a character. -/

namespace Text

/-- Unicode's `White_Space`. -/
def isWhitespace (c : Char) : Bool :=
  let n := c.toNat
  decide (9 ≤ n ∧ n ≤ 13) || n == 0x20 || n == 0x85 || n == 0xA0 || n == 0x1680 ||
    decide (0x2000 ≤ n ∧ n ≤ 0x200A) || n == 0x2028 || n == 0x2029 || n == 0x202F || n == 0x205F ||
    n == 0x3000

/-- The text without the white space at its ends. -/
def trim (s : String) : String :=
  String.ofList ((s.toList.dropWhile isWhitespace).rdropWhile isWhitespace)

def startsWith (s start : String) : Bool := start.toList.isPrefixOf s.toList

/-- The text after `start`, if it begins so. -/
def stripStart (s start : String) : Option String :=
  if startsWith s start then some (String.ofList (s.toList.drop start.toList.length)) else none

/-- The text before the first `c`, or all of it. -/
def before (c : Char) (s : String) : String := String.ofList (s.toList.takeWhile (· ≠ c))

/-- The text after the first `c`, if there is one. -/
def after (c : Char) (s : String) : Option String :=
  match s.toList.dropWhile (· ≠ c) with
  | _ :: rest => some (String.ofList rest)
  | [] => none

/-- The text has `part` somewhere. -/
def contains (s part : String) : Bool := s.toList.tails.any fun rest => part.toList.isPrefixOf rest

/-- The text without the characters with a property at its start. -/
def trimStart (p : Char → Bool) (s : String) : String := String.ofList (s.toList.dropWhile p)

/-- The text without the characters with a property at its end. -/
def trimEnd (p : Char → Bool) (s : String) : String := String.ofList (s.toList.rdropWhile p)

/-- The texts between the occurrences of `c`. -/
def split (c : Char) (s : String) : List String := (s.toList.splitOn c).map String.ofList

variable {s : String} {c : Char}

/-! ### Trimming -/

theorem trim_eq_empty_iff : trim s = "" ↔ ∀ c ∈ s.toList, isWhitespace c = true := by
  unfold trim
  rw [← String.toList_inj, String.toList_ofList, String.toList_empty, List.rdropWhile_eq_nil_iff]
  constructor
  · intro h
    by_contra hsome
    have hne : s.toList.dropWhile isWhitespace ≠ [] := fun hnil =>
      hsome (List.dropWhile_eq_nil_iff.mp hnil)
    have hhead := List.head_dropWhile_not isWhitespace hne
    rw [h _ (List.head_mem hne)] at hhead
    cases hhead
  · intro h c hc
    exact h c ((List.dropWhile_sublist _).subset hc)

/-- What is trimmed off the end of a text is not in front of a text of which something is left. -/
theorem trimEnd_append {p : Char → Bool} {a b : String} (h : trimEnd p b ≠ "") :
    trimEnd p (a ++ b) = a ++ trimEnd p b := by
  apply String.toList_inj.mp
  unfold trimEnd List.rdropWhile at *
  simp only [String.toList_append, String.toList_ofList, List.reverse_append, List.dropWhile_append]
  have hkept : (b.toList.reverse.dropWhile p).isEmpty = false := by
    rw [List.isEmpty_eq_false_iff]
    intro hnil
    rw [hnil] at h
    exact h rfl
  rw [hkept, if_neg Bool.false_ne_true, List.reverse_append, List.reverse_reverse]

theorem trimEnd_eq_empty_iff : trimEnd isWhitespace s = "" ↔ trim s = "" := by
  unfold trimEnd
  rw [trim_eq_empty_iff, ← String.toList_inj, String.toList_ofList, String.toList_empty,
    List.rdropWhile_eq_nil_iff]

theorem trim_trimEnd_ne_empty (h : trim s ≠ "") : trim (trimEnd isWhitespace s) ≠ "" := by
  rw [ne_eq, ← trimEnd_eq_empty_iff]
  unfold trimEnd
  rw [String.toList_ofList, List.rdropWhile_idempotent]
  exact fun hnil => h (trimEnd_eq_empty_iff.mp hnil)

/-- White space is only trimmed at the end of a text that begins with something else. -/
theorem trim_append {start : String} (hstart : ∀ c ∈ start.toList.head?, isWhitespace c = false)
    (hne : start ≠ "") {rest : String} (hrest : trim rest ≠ "") :
    trim (start ++ rest) = start ++ trimEnd isWhitespace rest := by
  rw [← trimEnd_append fun hnil => hrest (trimEnd_eq_empty_iff.mp hnil)]
  unfold trim trimEnd
  cases hlist : start.toList with
  | nil => exact absurd (String.toList_inj.mp hlist) hne
  | cons c cs =>
    rw [hlist] at hstart
    have hc : isWhitespace c = false := hstart c rfl
    rw [String.toList_append, hlist, List.cons_append, List.dropWhile_cons, hc,
      if_neg Bool.false_ne_true]

/-- A text that begins and ends in something else than white space is trimmed already. -/
theorem trim_between {start mid fin : String}
    (hstart : ∀ c ∈ start.toList.head?, isWhitespace c = false) (hne : start ≠ "")
    (hfin : trimEnd isWhitespace fin = fin) (hfin' : fin ≠ "") :
    trim (start ++ (mid ++ fin)) = start ++ (mid ++ fin) := by
  have hrest : trimEnd isWhitespace (mid ++ fin) = mid ++ fin := by
    rw [trimEnd_append, hfin]
    rwa [hfin]
  rw [trim_append hstart hne, hrest]
  rw [ne_eq, ← trimEnd_eq_empty_iff, hrest, String.append_eq_empty_iff]
  exact fun hnil => hfin' hnil.2

theorem notMem_trimEnd {p : Char → Bool} (h : c ∉ s.toList) : c ∉ (trimEnd p s).toList := by
  unfold trimEnd
  rw [String.toList_ofList]
  exact fun hmem => h ((List.rdropWhile_prefix p _).subset hmem)

theorem notMem_trim (h : c ∉ s.toList) : c ∉ (trim s).toList := by
  unfold trim
  rw [String.toList_ofList]
  exact fun hmem => h ((List.dropWhile_sublist _).subset ((List.rdropWhile_prefix _ _).subset hmem))

theorem trim_trim (s : String) : trim (trim s) = trim s := by
  apply String.toList_inj.mp
  have hfront : ((s.toList.dropWhile isWhitespace).rdropWhile isWhitespace).dropWhile isWhitespace =
      (s.toList.dropWhile isWhitespace).rdropWhile isWhitespace := by
    cases hlist : (s.toList.dropWhile isWhitespace).rdropWhile isWhitespace with
    | nil => rfl
    | cons c cs =>
      obtain ⟨tail, htail⟩ := List.rdropWhile_prefix isWhitespace (s.toList.dropWhile isWhitespace)
      rw [hlist] at htail
      have hne : s.toList.dropWhile isWhitespace ≠ [] := by
        rw [← htail]
        exact nofun
      have hhead := List.head_dropWhile_not isWhitespace hne
      simp only [← htail, List.cons_append, List.head_cons] at hhead
      rw [List.dropWhile_cons, hhead, if_neg Bool.false_ne_true]
  unfold trim
  simp only [String.toList_ofList]
  rw [hfront, List.rdropWhile_idempotent]

theorem trim_of_forall (h : ∀ c ∈ s.toList, isWhitespace c = false) : trim s = s := by
  have hfront : s.toList.dropWhile isWhitespace = s.toList := by
    rw [List.dropWhile_eq_self_iff]
    intro hpos
    exact Bool.eq_false_iff.mp (h _ (List.getElem_mem hpos))
  have hback : s.toList.rdropWhile isWhitespace = s.toList := by
    rw [List.rdropWhile_eq_self_iff]
    intro hne
    exact Bool.eq_false_iff.mp (h _ (List.getLast_mem hne))
  unfold trim
  rw [hfront, hback, String.ofList_toList]

/-! ### Splitting -/

theorem split_ne_nil (c : Char) (s : String) : split c s ≠ [] := by
  unfold split
  rw [ne_eq, List.map_eq_nil_iff]
  exact List.splitOn_ne_nil c _

theorem intercalate_split {sep : String} (hsep : sep.toList = [c]) (s : String) :
    sep.intercalate (split c s) = s := by
  apply String.toList_inj.mp
  rw [String.toList_intercalate, hsep, split, List.map_map]
  have hid : String.toList ∘ String.ofList = id := funext fun l => String.toList_ofList
  rw [hid, List.map_id, List.intercalate_splitOn]

theorem split_intercalate {sep : String} (hsep : sep.toList = [c]) {parts : List String}
    (hfree : ∀ p ∈ parts, c ∉ p.toList) (hne : parts ≠ []) :
    split c (sep.intercalate parts) = parts := by
  unfold split
  rw [String.toList_intercalate, hsep, List.splitOn_intercalate c ?_ ?_, List.map_map]
  · have hid : String.ofList ∘ String.toList = id := funext fun s => String.ofList_toList
    rw [hid, List.map_id]
  · intro l hl
    obtain ⟨p, hp, rfl⟩ := List.mem_map.mp hl
    exact hfree p hp
  · rw [ne_eq, List.map_eq_nil_iff]
    exact hne

theorem notMem_of_mem_split {part : String} (h : part ∈ split c s) : c ∉ part.toList := by
  obtain ⟨piece, hpiece, rfl⟩ := List.mem_map.mp h
  rw [String.toList_ofList]
  intro hmem
  simpa using Lists.of_mem_splitOnP hpiece c hmem

theorem split_of_notMem (h : c ∉ s.toList) : split c s = [s] := by
  unfold split
  rw [List.splitOn_eq_singleton h, List.map_singleton, String.ofList_toList]

theorem stripStart_append (start s : String) : stripStart (start ++ s) start = some s := by
  unfold stripStart startsWith
  rw [String.toList_append, List.drop_left, String.ofList_toList, if_pos]
  exact List.isPrefixOf_iff_prefix.mpr (List.prefix_append _ _)

theorem eq_of_stripStart {start rest : String} (h : stripStart s start = some rest) :
    s = start ++ rest := by
  unfold stripStart startsWith at h
  split at h
  · next hstart =>
    obtain ⟨tail, htail⟩ := List.isPrefixOf_iff_prefix.mp hstart
    cases h
    apply String.toList_inj.mp
    rw [String.toList_append, String.toList_ofList, ← htail, List.drop_left]
  · cases h

/-- What is before the first `c` of a text is not changed by what follows it. -/
theorem before_append {rest : String} (h : c ∉ s.toList) (hrest : rest.toList.head? = some c) :
    before c (s ++ rest) = s := by
  obtain ⟨tail, htail⟩ := List.head?_eq_some_iff.mp hrest
  unfold before
  rw [String.toList_append, htail, Lists.takeWhile_delimited h, String.ofList_toList]

theorem before_of_notMem (h : c ∉ s.toList) : before c s = s := by
  unfold before
  rw [List.takeWhile_eq_self_iff.mpr ?_, String.ofList_toList]
  intro d hd
  simpa using fun heq : d = c => h (heq ▸ hd)

theorem notMem_before (c : Char) (s : String) : c ∉ (before c s).toList := by
  unfold before
  rw [String.toList_ofList]
  intro hmem
  simpa using List.mem_takeWhile_imp hmem

theorem after_eq_none_iff : after c s = none ↔ c ∉ s.toList := by
  have hnil : after c s = none ↔ s.toList.dropWhile (· ≠ c) = [] := by
    unfold after
    split
    · next hcons =>
      rw [hcons]
      exact iff_of_false nofun (List.cons_ne_nil _ _)
    · next hnil => exact iff_of_true rfl hnil
  rw [hnil, List.dropWhile_eq_nil_iff]
  constructor
  · intro h hmem
    simpa using h c hmem
  · intro h d hd
    simpa using fun heq : d = c => h (heq ▸ hd)

/-- A text with a `c` is what is before the first one, `c`, and what is after it. -/
theorem eq_of_after {sep rest : String} (hsep : sep.toList = [c]) (h : after c s = some rest) :
    s = before c s ++ sep ++ rest := by
  unfold after at h
  split at h
  · next d tail hdrop =>
    cases h
    have hd := List.head_dropWhile_not (fun d => decide (d ≠ c)) (l := s.toList)
      (by rw [hdrop]; exact List.cons_ne_nil d tail)
    simp only [hdrop, List.head_cons] at hd
    have hdc : d = c := by simpa using hd
    apply String.toList_inj.mp
    rw [String.toList_append, String.toList_append, hsep, before, String.toList_ofList,
      String.toList_ofList, List.append_assoc, List.singleton_append, ← hdc]
    subst hdc
    rw [← hdrop, List.takeWhile_append_dropWhile]
  · cases h

theorem after_append {sep rest : String} (hsep : sep.toList = [c]) (h : c ∉ s.toList) :
    after c (s ++ sep ++ rest) = some rest := by
  have hdrop : (s ++ sep ++ rest).toList.dropWhile (· ≠ c) = c :: rest.toList := by
    rw [String.toList_append, String.toList_append, hsep, List.append_assoc, List.singleton_append]
    exact Lists.dropWhile_delimited h
  unfold after
  rw [hdrop]
  exact congrArg some String.ofList_toList

/-! ### Texts changed character by character -/

/-- The text with `f` at each character. -/
def map (f : Char → Char) (s : String) : String := String.ofList (s.toList.map f)

variable {f : Char → Char}

theorem map_map (hf : ∀ c, f (f c) = f c) (s : String) : map f (map f s) = map f s := by
  unfold map
  rw [String.toList_ofList, List.map_map]
  exact congrArg String.ofList (List.map_congr_left fun c _ => hf c)

theorem map_eq_empty_iff (s : String) : map f s = "" ↔ s = "" := by
  unfold map
  rw [← String.toList_inj, String.toList_ofList, String.toList_empty, List.map_eq_nil_iff,
    ← String.toList_inj, String.toList_empty]

theorem split_map (hf : ∀ d, f d = c ↔ d = c) (s : String) :
    split c (map f s) = (split c s).map (map f) := by
  have hsep : (fun d => d == c) ∘ f = fun d => d == c := by
    funext d
    show decide (f d = c) = decide (d = c)
    exact decide_eq_decide.mpr (hf d)
  unfold split map
  rw [String.toList_ofList, List.splitOn_eq_splitOnP, Lists.splitOnP_map, hsep,
    ← List.splitOn_eq_splitOnP, List.map_map, List.map_map]
  apply List.map_congr_left
  intro piece _
  show String.ofList _ = String.ofList (List.map f (String.ofList piece).toList)
  rw [String.toList_ofList]

theorem trim_map (hf : ∀ c, isWhitespace (f c) = isWhitespace c) (s : String) :
    trim (map f s) = map f (trim s) := by
  have hwhite : isWhitespace ∘ f = isWhitespace := funext hf
  unfold trim map List.rdropWhile
  simp only [String.toList_ofList, List.dropWhile_map, hwhite, ← List.map_reverse]

/-! ### Octets -/

theorem toList_loop (b : ByteArray) (n i : Nat) (read : List UInt8) (hi : i + n = b.data.size) :
    ByteArray.toList.loop b i read = read.reverse ++ b.data.toList.drop i := by
  induction n generalizing i read with
  | zero =>
    have hend : ¬i < b.size := show ¬i < b.data.size by omega
    have hnone : b.data.toList.length ≤ i := show b.data.size ≤ i by omega
    unfold ByteArray.toList.loop
    rw [if_neg hend, List.drop_eq_nil_of_le hnone, List.append_nil]
  | succ n ih =>
    have hlt : i < b.data.size := by omega
    have hget : b.get! i = b.data.toList[i] := (getElem!_pos b.data i hlt).trans rfl
    unfold ByteArray.toList.loop
    rw [if_pos (show i < b.size from hlt), ih (i + 1) _ (by omega), List.reverse_cons,
      List.append_assoc, List.singleton_append, hget, List.getElem_cons_drop]

/-- The octets of a text are read back as it. -/
theorem fromUTF8?_toUTF8 (s : String) : String.fromUTF8? ⟨s.toUTF8.toList.toArray⟩ = some s := by
  have hdata : (⟨s.toUTF8.toList.toArray⟩ : ByteArray) = s.toUTF8 := by
    unfold ByteArray.toList
    rw [toList_loop s.toUTF8 s.toUTF8.size 0 [] (Nat.zero_add _)]
    rfl
  rw [hdata]
  exact dif_pos s.isValidUTF8

end Text
