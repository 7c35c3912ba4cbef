import Mathlib

/-! CBOR as a sequence of tokens.  A token is the head of a data item with the content that belongs
to it; an array or a map is its head followed by the tokens of its items.  Readers take the tokens
one by one, and `Fills` joins what is written into a map to what a reader makes of it. -/

namespace Cbor

inductive Token
  | uint (n : UInt64)
  /-- The number `-1 - n`. -/
  | nint (n : UInt64)
  | bytes (data : List UInt8)
  | byteStream (chunks : List (List UInt8))
  | text (s : String)
  | textStream (parts : List String)
  /-- An array of `count` items, or one that ends at a `stop`. -/
  | array (count : Option Nat)
  /-- A map of `count` keys and values, or one that ends at a `stop`. -/
  | map (count : Option Nat)
  | tag (n : UInt64)
  | stop
  | simple (n : UInt8)
  | float (bits : UInt64)
deriving DecidableEq, Repr

/-- A token that is a data item by itself. -/
def Token.isLeaf : Token → Bool
  | .array _ | .map _ | .tag _ | .stop => false
  | _ => true

/-- The tokens of one data item whose arrays and maps hold as many items as their heads announce. -/
inductive WellCounted : List Token → Prop
  | leaf {t : Token} : t.isLeaf = true → WellCounted [t]
  | tag {n : UInt64} {l : List Token} : WellCounted l → WellCounted (.tag n :: l)
  | array {items : List (List Token)} :
      (∀ l ∈ items, WellCounted l) → WellCounted (.array (some items.length) :: items.flatten)
  | map {count : Nat} {items : List (List Token)} : items.length = 2 * count →
      (∀ l ∈ items, WellCounted l) → WellCounted (.map (some count) :: items.flatten)

/-- Announces an array of `items`. -/
def emitArray (items : List (List Token)) : List Token := .array (some items.length) :: items.flatten

/-- Announces a map of `count` entries, and emits keys and values in turn. -/
def emitMap (count : Nat) (items : List (List Token)) : List Token :=
  .map (some count) :: items.flatten

inductive Error
  | notEnoughData
  | incorrectType (expected : String)
  | unexpectedTag
  | partialMap
  | maxRecursion
  | outOfRange
deriving DecidableEq, Repr

abbrev Reader (α : Type) := StateT (List Token) (Except Error) α

/-- The tags in front of an item, and the tokens after them. -/
def splitTags : List Token → List UInt64 × List Token
  | .tag n :: rest => ((n :: (splitTags rest).1), (splitTags rest).2)
  | rest => ([], rest)

/-- The head of the next item, with the tags in front of it. -/
def parseValue : Reader (List UInt64 × Token) := fun tokens =>
  match splitTags tokens with
  | (tags, head :: rest) => .ok ((tags, head), rest)
  | (_, []) => .error .notEnoughData

/-- Applies `body` once for each of `n` items. -/
def times {σ : Type} (body : σ → Reader σ) : Nat → σ → Reader σ
  | 0, s => pure s
  | n + 1, s => body s >>= times body n

/-- Applies `body` until a `stop`, at most `fuel` times. -/
def untilStop {σ : Type} (body : σ → Reader σ) : Nat → σ → Reader σ
  | 0, _ => throw .notEnoughData
  | fuel + 1, s => fun tokens =>
    match tokens with
    | .stop :: rest => .ok (s, rest)
    | _ => (body s >>= untilStop body fuel) tokens

/-- The items of an array or the entries of a map, one `body` for each. -/
def series {σ : Type} (body : σ → Reader σ) (count : Option Nat) (s : σ) : Reader σ := fun tokens =>
  match count with
  | some n => times body n s tokens
  -- every item takes a token, so that the tokens bound the number of items
  | none => untilStop body (tokens.length + 1) s tokens

/-- Skips an item that nests at most `depth` deep. -/
def skipValue : Nat → Reader Unit
  | 0 => do
    match ← parseValue with
    | (_, .array _) | (_, .map _) => throw .maxRecursion
    | _ => return ()
  | depth + 1 => do
    match ← parseValue with
    | (_, .array count) => series (fun _ => skipValue depth) count ()
    | (_, .map count) => series (fun _ => do skipValue depth; skipValue depth) count ()
    | _ => return ()

def u64 : Reader UInt64 := do
  match ← parseValue with
  | (_, .uint n) => return n
  | _ => throw (.incorrectType "Unsigned Integer")

def i64 : Reader Int := do
  match ← parseValue with
  | (_, .uint n) => if n.toNat < 2 ^ 63 then return n.toNat else throw .outOfRange
  | (_, .nint n) => if n.toNat < 2 ^ 63 then return -1 - n.toNat else throw .outOfRange
  | _ => throw (.incorrectType "Integer")

/-- An array whose items `elem` reads. -/
def array {α : Type} (elem : Reader α) : Reader (List α) := do
  match ← parseValue with
  | (_, .array count) => series (fun out => do return out ++ [← elem]) count []
  | _ => throw (.incorrectType "Array")

/-- A map whose entries `body` reads one by one; `body` is given the tags of the map. -/
def map {σ : Type} (body : σ → Reader σ) (s : List UInt64 → σ) : Reader σ := do
  match ← parseValue with
  | (tags, .map count) => series body count (s tags)
  | _ => throw (.incorrectType "Map")

/-- Reads one item from the front of the data. -/
def decode {α : Type} (c : Reader α) (data : List Token) : Except Error α := (c data).map Prod.fst

/-- `c` reads exactly the tokens `l`, as `a`. -/
def Reads {α : Type} (c : Reader α) (l : List Token) (a : α) : Prop :=
  ∀ rest, c (l ++ rest) = .ok (a, rest)

namespace Reads

variable {α β σ : Type} {c : Reader α} {l l' : List Token} {a : α}

theorem decode (h : Reads c l a) : Cbor.decode c l = .ok a := by
  have := h []
  rw [List.append_nil] at this
  rw [Cbor.decode, this]
  rfl

theorem bind {f : α → Reader β} {b : β} (h : Reads c l a) (h' : Reads (f a) l' b) :
    Reads (c >>= f) (l ++ l') b := by
  intro rest
  have hc : (c >>= f) (l ++ (l' ++ rest)) = f a (l' ++ rest) := by
    show (c (l ++ (l' ++ rest)) >>= fun p => f p.1 p.2) = _
    rw [h]
    rfl
  rw [List.append_assoc, hc, h']

theorem pure (a : α) : Reads (Pure.pure a) [] a := fun _ => rfl

theorem bind_pure {f : α → Reader β} {b : β} (h : Reads c l a) (hf : f a = Pure.pure b) :
    Reads (c >>= f) l b := by
  have hrest : Reads (f a) [] b := by
    rw [hf]
    exact .pure b
  have := h.bind hrest
  rwa [List.append_nil] at this

theorem value {t : Token} (htag : ∀ n, t ≠ .tag n) : Reads parseValue [t] ([], t) := by
  intro rest
  cases t with
  | tag n => exact absurd rfl (htag n)
  | _ => rfl

theorem u64 (n : UInt64) : Reads Cbor.u64 [.uint n] n := fun _ => rfl

theorem times_zero (body : σ → Reader σ) (s : σ) : Reads (times body 0 s) [] s := .pure s

theorem times_succ {body : σ → Reader σ} {n : Nat} {s s' s'' : σ} (h : Reads (body s) l s')
    (h' : Reads (times body n s') l' s'') : Reads (times body (n + 1) s) (l ++ l') s'' :=
  h.bind h'

theorem times_add {body : σ → Reader σ} {n m : Nat} {s s' s'' : σ}
    (h : Reads (times body n s) l s') (h' : Reads (times body m s') l' s'') :
    Reads (times body (n + m) s) (l ++ l') s'' := by
  have hsplit : times body (n + m) s = times body n s >>= times body m := by
    clear h
    induction n generalizing s with
    | zero => simp [times]
    | succ n ih =>
      rw [Nat.succ_add]
      show (body s >>= times body (n + m)) = (body s >>= times body n) >>= times body m
      rw [bind_assoc]
      exact congrArg _ (funext fun s' => ih)
  rw [hsplit]
  exact h.bind h'

/-- An array of items that `elem` reads back one by one. -/
theorem array {elem : Reader α} {emit : α → List Token} (xs : List α)
    (h : ∀ x ∈ xs, Reads elem (emit x) x) :
    Reads (Cbor.array elem) (emitArray (xs.map emit)) xs := by
  have hloop : ∀ (ys : List α) (out : List α), (∀ x ∈ ys, Reads elem (emit x) x) →
      Reads (times (fun out => do return out ++ [← elem]) ys.length out) (ys.map emit).flatten
        (out ++ ys) := by
    intro ys
    induction ys with
    | nil =>
      intro out _
      rw [List.append_nil]
      exact times_zero _ out
    | cons y ys ih =>
      intro out hys
      have hhead : Reads (do return out ++ [← elem]) (emit y) (out ++ [y]) :=
        (hys y List.mem_cons_self).bind_pure rfl
      have htail := ih (out ++ [y]) fun x hx => hys x (List.mem_cons_of_mem y hx)
      rw [List.append_assoc] at htail
      exact times_succ hhead htail
  have hseries : Reads (series (fun out => do return out ++ [← elem]) (some (xs.map emit).length) [])
      (xs.map emit).flatten xs := by
    rw [List.length_map]
    exact hloop xs [] h
  exact (value (t := .array (some (xs.map emit).length)) nofun).bind hseries

end Reads

/-- The items are the keys and values of `n` entries, which take the state of `body` from `s` to
`s'`. -/
structure Fills {σ : Type} (body : σ → Reader σ) (n : Nat) (s : σ) (items : List (List Token))
    (s' : σ) : Prop where
  length : items.length = 2 * n
  counted : ∀ l ∈ items, WellCounted l
  reads : Reads (times body n s) items.flatten s'

namespace Fills

variable {σ : Type} {body : σ → Reader σ} {n m : Nat} {s s' s'' : σ} {items items' : List (List Token)}

theorem nil (s : σ) : Fills body 0 s [] s := ⟨rfl, nofun, .times_zero body s⟩

theorem entry {key value : List Token} (hkey : WellCounted key) (hvalue : WellCounted value)
    (h : Reads (body s) (key ++ value) s') : Fills body 1 s [key, value] s' where
  length := rfl
  counted := by simpa using ⟨hkey, hvalue⟩
  reads := by simpa using Reads.times_succ h (.times_zero body s')

theorem append (h : Fills body n s items s') (h' : Fills body m s' items' s'') :
    Fills body (n + m) s (items ++ items') s'' where
  length := by
    have := h.length
    have := h'.length
    rw [List.length_append]
    omega
  counted l hl := (List.mem_append.mp hl).elim (h.counted l) (h'.counted l)
  reads := by
    rw [List.flatten_append]
    exact h.reads.times_add h'.reads

/-- An entry that is written only where there is a value. -/
theorem optional {β : Type} {o : Option β} {f : β → List (List Token)} (set : Option β → σ)
    (h : ∀ v, Fills body 1 (set none) (f v) (set (some v))) :
    Fills body o.isSome.toNat (set none) (o.elim [] f) (set o) := by
  cases o with
  | none => exact nil _
  | some v => exact h v

theorem wellCounted (h : Fills body n s items s') : WellCounted (emitMap n items) :=
  .map h.length h.counted

/-- A map under any tags. -/
theorem map {start : List UInt64 → σ} (tags : List UInt64) (h : Fills body n (start tags) items s') :
    Reads (Cbor.map body start) (tags.map .tag ++ emitMap n items) s' := by
  intro rest
  have htags : splitTags (tags.map .tag ++ emitMap n items ++ rest) =
      (tags, emitMap n items ++ rest) := by
    clear h
    induction tags with
    | nil => rfl
    | cons tag tags ih => simp only [List.map_cons, List.cons_append, splitTags, ih]
  have hhead : parseValue (tags.map .tag ++ emitMap n items ++ rest) =
      .ok ((tags, .map (some n)), items.flatten ++ rest) := by
    unfold parseValue
    rw [htags]
    rfl
  show (parseValue _ >>= fun p => _) = _
  rw [hhead]
  exact h.reads rest

end Fills

end Cbor
