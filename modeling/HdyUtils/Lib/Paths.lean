import HdyUtils.Lib.Text

/-! Paths of files: the components of a path, the path that is joined to a directory, and the place in the
tree of files that a path leads to. -/

namespace Paths

def parts (path : String) : List String := Text.split '/' path

def isAbsolute (path : String) : Bool := Text.startsWith path "/"

inductive Component
  | rootDir
  | curDir
  | parentDir
  | normal (name : String)
deriving DecidableEq

/-- The component that a part after the first is. -/
def component (part : String) : Option Component :=
  if part = "" ∨ part = "." then none
  else if part = ".." then some .parentDir
  else some (.normal part)

/-- The components of a path: a dot counts only where it is the first. -/
def components (path : String) : List Component :=
  match parts path with
  | [] => []
  | first :: rest =>
    (if isAbsolute path then [.rootDir]
      else if first = "." then [.curDir]
      else (component first).toList) ++ rest.filterMap component

/-- A path in a directory. -/
def join (dir name : String) : String :=
  if isAbsolute name then name
  else if dir = "" ∨ dir.toList.getLast? = some '/' then dir ++ name
  else dir ++ "/" ++ name

/-- The place to which parts lead from another. -/
def resolve : List String → List String → List String
  | place, [] => place
  | place, part :: rest =>
    if part = "" ∨ part = "." then resolve place rest
    else if part = ".." then resolve place.dropLast rest
    else resolve (place ++ [part]) rest

/-- The place to which a path leads from the working directory. -/
def place (cwd : List String) (path : String) : List String :=
  resolve (if isAbsolute path then [] else cwd) (parts path)

variable {cwd : List String} {dir name : String}

theorem resolve_append (place ps qs : List String) :
    resolve place (ps ++ qs) = resolve (resolve place ps) qs := by
  induction ps generalizing place with
  | nil => rfl
  | cons part ps ih =>
    simp only [List.cons_append, resolve]
    split
    · exact ih place
    · split <;> exact ih _

/-- Parts without a way up lead further down. -/
theorem resolve_eq_append {ps : List String} (h : ".." ∉ ps) (place : List String) :
    resolve place ps = place ++ ps.filter fun part => part ≠ "" ∧ part ≠ "." := by
  induction ps generalizing place with
  | nil => simp [resolve]
  | cons part ps ih =>
    have hup : part ≠ ".." := fun heq => h (heq ▸ List.mem_cons_self)
    have hrest : ".." ∉ ps := fun hmem => h (List.mem_cons_of_mem part hmem)
    rw [resolve, List.filter_cons]
    split
    · next hskip =>
      rw [ih hrest, if_neg]
      rcases hskip with rfl | rfl <;> simp
    · next hname =>
      rw [ih hrest, if_pos]
      · rw [List.append_assoc, List.singleton_append]
      · simpa using hname

theorem parts_append (a b : String) : parts (a ++ "/" ++ b) = parts a ++ parts b := by
  unfold parts Text.split
  rw [String.toList_append, String.toList_append, ← List.map_append]
  have hslash : "/".toList = ['/'] := rfl
  rw [hslash, List.append_assoc, List.singleton_append, List.splitOn_append_cons_self]

theorem isAbsolute_append (h : dir ≠ "") (rest : String) :
    isAbsolute (dir ++ rest) = isAbsolute dir := by
  unfold isAbsolute Text.startsWith
  rw [String.toList_append]
  cases hdir : dir.toList with
  | nil => exact absurd (String.toList_inj.mp hdir) h
  | cons c cs =>
    have hslash : "/".toList = ['/'] := rfl
    rw [hslash, List.cons_append]
    rfl

/-- A path in a directory leads from where the directory is. -/
theorem place_join (h : isAbsolute name = false) :
    place cwd (join dir name) = resolve (place cwd dir) (parts name) := by
  unfold join
  rw [h, if_neg Bool.false_ne_true]
  split
  · next hend =>
    rcases hend with rfl | hlast
    · have hempty : place cwd "" = cwd := rfl
      rw [String.empty_append, hempty, place, h, if_neg Bool.false_ne_true]
    · obtain ⟨init, hinit⟩ := List.getLast?_eq_some_iff.mp hlast
      have hdir : dir = String.ofList init ++ "/" := by
        apply String.toList_inj.mp
        rw [String.toList_append, String.toList_ofList, hinit]
        rfl
      have hne : dir ≠ "" := by
        rintro rfl
        cases hlast
      have hparts : parts dir = parts (String.ofList init) ++ [""] := by
        have hempty : parts "" = [""] := rfl
        rw [hdir, ← hempty, ← parts_append, String.append_empty]
      have hskip : ∀ p, resolve p [""] = p := fun p => rfl
      rw [place, place, isAbsolute_append hne, hparts, hdir, parts_append, resolve_append,
        resolve_append, hskip]
  · next hdir =>
    have hne : dir ≠ "" := fun heq => hdir (.inl heq)
    rw [place, place, String.append_assoc, isAbsolute_append hne, ← String.append_assoc, parts_append,
      resolve_append]

/-- A path of names alone is not absolute and has no way up. -/
theorem notMem_of_components (h : ∀ c ∈ components name, ∃ n, c = .normal n) :
    isAbsolute name = false ∧ ".." ∉ parts name := by
  have hup : component ".." = some .parentDir := rfl
  unfold components at h
  cases hparts : parts name with
  | nil => exact absurd hparts (Text.split_ne_nil '/' name)
  | cons first rest =>
    simp only [hparts] at h
    have habsolute : isAbsolute name = false := by
      by_contra hroot
      rw [if_pos (by simpa using hroot)] at h
      obtain ⟨n, hn⟩ := h .rootDir (List.mem_append_left _ (List.mem_singleton_self _))
      cases hn
    refine ⟨habsolute, fun hmem => ?_⟩
    rcases List.mem_cons.mp hmem with rfl | hrest
    · have hin : Component.parentDir ∈ (if isAbsolute name then [.rootDir]
          else if ".." = "." then [.curDir] else (component "..").toList) ++ rest.filterMap component := by
        rw [habsolute, if_neg Bool.false_ne_true, if_neg (by decide), hup]
        exact List.mem_append_left _ (List.mem_singleton_self _)
      obtain ⟨n, hn⟩ := h _ hin
      cases hn
    · have hin : Component.parentDir ∈ rest.filterMap component :=
        List.mem_filterMap.mpr ⟨"..", hrest, hup⟩
      obtain ⟨n, hn⟩ := h _ (List.mem_append_right _ hin)
      cases hn

end Paths
