import HdyUtils.Ltp.Sdnv

/-! The codec of `sdnv.rs` on the machine words it computes with.  A shift of a `u64` drops the bits
that it moves out of the word, so what the word decoder returns could differ from the value that the
octets spell.  It does not: `decode_eq` and `encode_eq` give back the codec on naturals, and
`decode_ok_iff` says which inputs are accepted, with which value. -/

namespace HdyUtils.Ltp.Sdnv.Word

/-- The number of octets in the canonical encoding of `v`. -/
def encodedLen (v : UInt64) : Nat :=
  let bits := 64 - (v ||| 1).toBitVec.clz.toNat
  (bits + 6) / 7

/-- Octet `i` of the `n` octets that encode `v`. -/
def octet (v : UInt64) (n i : Nat) : UInt8 :=
  let shift := 7 * (n - 1 - i)
  let group := ((v >>> UInt64.ofNat shift) &&& 0x7F).toUInt8
  let cont : UInt8 := if i + 1 = n then 0x00 else 0x80
  cont ||| group

def encodeToArray (v : UInt64) : List UInt8 :=
  if v < 0x80 then [v.toUInt8]
  else
    let n := encodedLen v
    (List.range n).map (octet v n)

def encode (v : UInt64) : List UInt8 := encodeToArray v

def decodeLoop (len : Nat) : List UInt8 → Nat → UInt64 → Except Error (UInt64 × Nat)
  | [], _, _ => if maxLen ≤ len then .error .overflow else .error .truncated
  | b :: bs, i, acc =>
    if i = maxLen then .error .overflow
    else if acc >>> 57 ≠ 0 then .error .overflow
    else
      let acc := (acc <<< 7) ||| (b &&& 0x7F).toUInt64
      if b &&& 0x80 = 0 then .ok (acc, i + 1) else decodeLoop len bs (i + 1) acc

def decode (input : List UInt8) : Except Error (UInt64 × Nat) :=
  match input with
  | first :: _ =>
    if first &&& 0x80 = 0 then .ok (first.toUInt64, 1) else decodeLoop input.length input 0 0
  | [] => decodeLoop 0 [] 0 0

/-! ### Words and naturals -/

theorem toNat_or_one_ne_zero (v : UInt64) : v.toNat ||| 1 ≠ 0 := by
  have hone : 1 ≤ v.toNat ||| 1 := Nat.right_le_or
  omega

theorem encodedLen_eq (v : UInt64) : encodedLen v = Sdnv.encodedLen v.toNat := by
  have hval : (v ||| 1).toBitVec.toNat = v.toNat ||| 1 := by
    rw [UInt64.toNat_toBitVec, UInt64.toNat_or]
    rfl
  have hne : (v ||| 1).toBitVec ≠ 0#64 := by
    intro h
    apply toNat_or_one_ne_zero v
    rw [← hval, h]
    rfl
  have hlow := BitVec.two_pow_sub_clz_le_toNat_of_ne_zero (by decide) hne
  have hhigh := BitVec.toNat_lt_two_pow_sub_clz (x := (v ||| 1).toBitVec)
  have hclz := BitVec.lt_def.mp (BitVec.clz_lt_iff_ne_zero.mpr hne)
  rw [hval] at hlow hhigh
  change _ < 64 at hclz
  have hlog : Nat.log2 (v.toNat ||| 1) = 63 - (v ||| 1).toBitVec.clz.toNat := by
    rw [Nat.log2_eq_iff (toNat_or_one_ne_zero v)]
    refine ⟨hlow, ?_⟩
    rwa [show 63 - (v ||| 1).toBitVec.clz.toNat + 1 = 64 - (v ||| 1).toBitVec.clz.toNat by omega]
  simp only [encodedLen, Sdnv.encodedLen, hlog]
  omega

/-- No octet of an encoding is shifted by the width of the word. -/
theorem octet_eq (v : UInt64) {n i : Nat} (hn : n ≤ maxLen) :
    octet v n i = Sdnv.octet v.toNat n i := by
  have hshift : (UInt64.ofNat (7 * (n - 1 - i))).toNat = 7 * (n - 1 - i) := by
    rw [UInt64.toNat_ofNat']
    simp only [maxLen] at hn
    omega
  have hgroup : ((v >>> UInt64.ofNat (7 * (n - 1 - i))) &&& 0x7F).toUInt8 =
      UInt8.ofNat ((v.toNat >>> (7 * (n - 1 - i))) &&& 0x7F) := by
    apply UInt8.toNat_inj.mp
    simp only [maxLen] at hn
    rw [UInt64.toNat_toUInt8, UInt8.toNat_ofNat', UInt64.toNat_and, UInt64.toNat_shiftRight, hshift,
      Nat.mod_eq_of_lt (by omega : 7 * (n - 1 - i) < 64)]
    rfl
  simp only [octet, Sdnv.octet, hgroup]

theorem encode_eq (v : UInt64) : encode v = Sdnv.encode v.toNat := by
  have hlt : v < 0x80 ↔ v.toNat < 0x80 := UInt64.lt_iff_toNat_lt
  have hfirst : v.toUInt8 = UInt8.ofNat v.toNat := by
    apply UInt8.toNat_inj.mp
    rw [UInt64.toNat_toUInt8, UInt8.toNat_ofNat']
  have hlen : Sdnv.encodedLen v.toNat ≤ maxLen := encodedLen_le v.toNat_lt
  simp only [encode, encodeToArray, Sdnv.encode, Sdnv.encodeToArray, hlt, hfirst, encodedLen_eq]
  congr 1
  apply List.map_congr_left
  intro i _
  exact octet_eq v hlen

theorem guard_iff (acc : UInt64) : acc >>> 57 = 0 ↔ acc.toNat < 2 ^ 57 := by
  rw [← UInt64.toNat_inj, UInt64.toNat_shiftRight, Nat.shiftRight_eq_div_pow]
  change acc.toNat / 2 ^ 57 = 0 ↔ _
  rw [Nat.div_eq_zero_iff]
  omega

/-- Past the guard of the loop, the shift drops no bit. -/
theorem toNat_shift_or {acc : UInt64} (h : acc >>> 57 = 0) (b : UInt8) :
    ((acc <<< 7) ||| (b &&& 0x7F).toUInt64).toNat = acc.toNat * 128 + b.toNat % 128 := by
  have hacc := (guard_iff acc).mp h
  have hshift : (acc <<< 7).toNat = acc.toNat * 128 := by
    rw [UInt64.toNat_shiftLeft, Nat.shiftLeft_eq]
    change acc.toNat * 2 ^ 7 % 2 ^ 64 = _
    omega
  have hlow : b.toNat % 128 < 2 ^ 7 := Nat.mod_lt _ (by decide)
  rw [UInt64.toNat_or, hshift, UInt8.toNat_toUInt64, toNat_and_low, Nat.mul_comm]
  exact (Nat.two_pow_add_eq_or_of_lt hlow acc.toNat).symm

/-- The loop on words is the loop on naturals. -/
theorem decodeLoop_eq (len : Nat) (bs : List UInt8) (i : Nat) (acc : UInt64) :
    (decodeLoop len bs i acc).map (fun out => (out.1.toNat, out.2)) =
      Sdnv.decodeLoop len bs i acc.toNat := by
  induction bs generalizing i acc with
  | nil =>
    unfold decodeLoop Sdnv.decodeLoop
    split <;> rfl
  | cons b bs ih =>
    unfold decodeLoop Sdnv.decodeLoop
    have hguard : acc >>> 57 ≠ 0 ↔ acc.toNat >>> 57 ≠ 0 := by
      rw [ne_eq, ne_eq, guard_iff, Nat.shiftRight_eq_div_pow, Nat.div_eq_zero_iff]
      omega
    split
    · rfl
    simp only [hguard]
    split
    · rfl
    rename_i h
    have hstep := toNat_shift_or (not_not.mp (mt hguard.mp h)) b
    have hlow : b.toNat % 128 < 2 ^ 7 := Nat.mod_lt _ (by decide)
    have hor := Nat.two_pow_add_eq_or_of_lt hlow acc.toNat
    have hnat : acc.toNat <<< 7 ||| (b &&& 0x7F).toNat =
        ((acc <<< 7) ||| (b &&& 0x7F).toUInt64).toNat := by
      rw [hstep, toNat_and_low, Nat.shiftLeft_eq, Nat.mul_comm, ← hor, Nat.mul_comm]
    simp only [hnat]
    split
    · rfl
    · exact ih _ _

theorem decode_eq (input : List UInt8) :
    (decode input).map (fun out => (out.1.toNat, out.2)) = Sdnv.decode input := by
  unfold decode Sdnv.decode
  cases input with
  | nil => exact decodeLoop_eq 0 [] 0 0
  | cons first rest =>
    simp only
    split
    · exact congrArg (fun v => Except.ok (v, 1)) (UInt8.toNat_toUInt64 first)
    · exact decodeLoop_eq _ _ 0 0

/-! ### What is accepted -/

/-- The value of the digits of `bs` in base 128, after the value `acc` of those before them. -/
def valueFrom (acc : Nat) (bs : List UInt8) : Nat :=
  bs.foldl (fun acc b => acc * 128 + b.toNat % 128) acc

/-- The first `n` octets of the input continue the value `acc` to `v`. -/
inductive Spells : Nat → List UInt8 → Nat → Nat → Prop
  | last (acc : Nat) (b : UInt8) (rest : List UInt8) (hlast : b &&& 0x80 = 0) :
      Spells acc (b :: rest) (acc * 128 + b.toNat % 128) 1
  | next (acc : Nat) (b : UInt8) (rest : List UInt8) (v n : Nat) (hmore : b &&& 0x80 ≠ 0)
      (hrest : Spells (acc * 128 + b.toNat % 128) rest v n) :
      Spells acc (b :: rest) v (n + 1)

theorem Spells.pos {acc v n : Nat} {bs : List UInt8} (h : Spells acc bs v n) : 0 < n := by
  cases h <;> omega

theorem Spells.le {acc v n : Nat} {bs : List UInt8} (h : Spells acc bs v n) : acc * 128 ≤ v := by
  induction h with
  | last => omega
  | next _ _ _ _ _ _ _ ih => omega

theorem decodeLoop_ok_iff {len : Nat} {bs : List UInt8} {i : Nat} {acc v : UInt64} {n : Nat}
    (hi : i ≤ maxLen) :
    decodeLoop len bs i acc = .ok (v, n) ↔
      n ≤ maxLen ∧ i ≤ n ∧ Spells acc.toNat bs v.toNat (n - i) := by
  induction bs generalizing i acc with
  | nil =>
    constructor
    · intro h
      unfold decodeLoop at h
      split at h <;> cases h
    · rintro ⟨_, _, h⟩
      cases h
  | cons b bs ih =>
    unfold decodeLoop
    split
    · rename_i hmax
      refine ⟨fun h => (by cases h), ?_⟩
      rintro ⟨hn, _, h⟩
      have hpos := h.pos
      omega
    rename_i hmax
    split
    · rename_i hguard
      refine ⟨fun h => (by cases h), ?_⟩
      rintro ⟨_, _, h⟩
      -- the digits before this one alone exceed the word
      have hle := h.le
      have hv := v.toNat_lt
      exact absurd ((guard_iff acc).mpr (by omega)) hguard
    rename_i hguard
    have hstep := toNat_shift_or (not_not.mp hguard) b
    simp only
    split
    · rename_i hlast
      constructor
      · intro h
        cases h
        rw [hstep]
        refine ⟨by omega, by omega, ?_⟩
        rw [Nat.add_sub_cancel_left]
        exact .last _ _ _ hlast
      · rintro ⟨_, hin, h⟩
        generalize hk : n - i = k at h
        generalize hval : v.toNat = w at h
        cases h with
        | last =>
          rw [show n = i + 1 by omega, UInt64.toNat_inj.mp (hstep.trans hval.symm)]
        | next _ _ _ _ _ hmore => exact absurd hlast hmore
    · rename_i hmore
      rw [ih (by omega), hstep]
      constructor
      · rintro ⟨hn, hin, h⟩
        refine ⟨hn, by omega, ?_⟩
        rw [show n - i = n - (i + 1) + 1 by omega]
        exact .next _ _ _ _ _ hmore h
      · rintro ⟨hn, hin, h⟩
        generalize hk : n - i = k at h
        generalize v.toNat = w at h ⊢
        cases h with
        | last _ _ _ hlast => exact absurd hlast hmore
        | next _ _ _ _ m _ hrest =>
          have hm := hrest.pos
          refine ⟨hn, by omega, ?_⟩
          rwa [show n - (i + 1) = m by omega]

theorem decode_iff_spells {input : List UInt8} {v : UInt64} {n : Nat} :
    decode input = .ok (v, n) ↔ n ≤ maxLen ∧ Spells 0 input v.toNat n := by
  have hloop : ∀ len, decodeLoop len input 0 0 = .ok (v, n) ↔
      n ≤ maxLen ∧ Spells 0 input v.toNat n := by
    intro len
    rw [decodeLoop_ok_iff (by decide)]
    simp
  unfold decode
  split
  · rename_i first rest
    split
    · rename_i hlast
      -- the short form is what the loop gives on a single octet
      rw [← hloop 0, decodeLoop, if_neg (by decide), if_neg (by decide)]
      simp only [hlast, if_true, Except.ok.injEq, Prod.mk.injEq, Nat.zero_add]
      have hfirst := (and_high_eq_zero_iff first).mp hlast
      have hstep := toNat_shift_or (show (0 : UInt64) >>> 57 = 0 by decide) first
      have hword : (0 : UInt64) <<< 7 ||| (first &&& 0x7F).toUInt64 = first.toUInt64 := by
        apply UInt64.toNat_inj.mp
        rw [hstep, UInt8.toNat_toUInt64]
        change 0 * 128 + _ = _
        omega
      rw [hword]
    · exact hloop _
  · exact hloop 0

/-- Digits are spelled by octets that continue up to one that does not. -/
theorem spells_iff {acc v n : Nat} {bs : List UInt8} :
    Spells acc bs v n ↔ 0 < n ∧ (∀ o ∈ bs.take (n - 1), o &&& 0x80 ≠ 0) ∧
      (∃ o, bs[n - 1]? = some o ∧ o &&& 0x80 = 0) ∧ valueFrom acc (bs.take n) = v := by
  constructor
  · intro h
    induction h with
    | last acc b rest hlast => exact ⟨by omega, by simp, ⟨b, rfl, hlast⟩, rfl⟩
    | next acc b rest v n hmore _ ih =>
      obtain ⟨hn, hall, ⟨o, ho, hlast⟩, hval⟩ := ih
      obtain ⟨m, rfl⟩ : ∃ m, n = m + 1 := ⟨n - 1, by omega⟩
      refine ⟨by omega, ?_, ⟨o, ho, hlast⟩, hval⟩
      intro o ho
      rcases List.mem_cons.mp ho with rfl | ho
      · exact hmore
      · exact hall o ho
  · induction bs generalizing acc n with
    | nil =>
      rintro ⟨_, _, ⟨o, ho, _⟩, _⟩
      simp at ho
    | cons b rest ih =>
      rintro ⟨hn, hall, ⟨o, ho, hlast⟩, hval⟩
      obtain ⟨m, rfl⟩ : ∃ m, n = m + 1 := ⟨n - 1, by omega⟩
      cases m with
      | zero =>
        cases ho
        rw [← hval]
        exact .last _ _ _ hlast
      | succ m =>
        have hmore := hall b (by simp)
        refine .next _ _ _ _ _ hmore (ih ⟨by omega, fun o ho => ?_, ⟨o, ho, hlast⟩, hval⟩)
        exact hall o (List.mem_cons_of_mem _ ho)

/-- `decode` reads a chain of at most ten octets whose base-128 value is a `u64`, and reads nothing
else. -/
theorem decode_ok_iff {input : List UInt8} {v n : Nat} :
    (∃ w, decode input = .ok (w, n) ∧ w.toNat = v) ↔
      1 ≤ n ∧ n ≤ maxLen ∧ (∀ o ∈ input.take (n - 1), o &&& 0x80 ≠ 0) ∧
        (∃ o, input[n - 1]? = some o ∧ o &&& 0x80 = 0) ∧
        valueFrom 0 (input.take n) = v ∧ v < 2 ^ 64 := by
  constructor
  · rintro ⟨w, h, rfl⟩
    obtain ⟨hmax, hspells⟩ := decode_iff_spells.mp h
    obtain ⟨hn, hall, hlast, hval⟩ := spells_iff.mp hspells
    exact ⟨hn, hmax, hall, hlast, hval, w.toNat_lt⟩
  · rintro ⟨hn, hmax, hall, hlast, hval, hv⟩
    have hnat : (UInt64.ofNat v).toNat = v := by
      rw [UInt64.toNat_ofNat']
      omega
    refine ⟨UInt64.ofNat v, decode_iff_spells.mpr ⟨hmax, ?_⟩, hnat⟩
    rw [hnat]
    exact spells_iff.mpr ⟨hn, hall, hlast, hval⟩

theorem decode_encode_append (v : UInt64) (rest : List UInt8) :
    decode (encode v ++ rest) = .ok (v, encodedLen v) := by
  have h := Sdnv.decode_encode_append v.toNat_lt rest
  rw [← decode_eq, length_encode, ← encodedLen_eq, ← encode_eq] at h
  cases hdec : decode (encode v ++ rest) with
  | error e => rw [hdec] at h; cases h
  | ok out =>
    rw [hdec] at h
    simp only [Except.map, Except.ok.injEq, Prod.mk.injEq, UInt64.toNat_inj] at h
    exact congrArg Except.ok (Prod.ext h.1 h.2)

/-- Another encoding that decodes to the same value is longer. -/
theorem length_encode_lt {v : UInt64} {bs : List UInt8} (h : decode bs = .ok (v, bs.length))
    (hne : bs ≠ encode v) : (encode v).length < bs.length := by
  have hnat : Sdnv.decode bs = .ok (v.toNat, bs.length) := by
    rw [← decode_eq, h]
    rfl
  obtain ⟨used, rest, k, rfl, hlen, hused, _⟩ := decode_spells hnat
  have hrest : rest = [] := by
    apply List.length_eq_zero_iff.mp
    rw [List.length_append] at hlen
    omega
  subst hrest
  rw [List.append_nil] at hne ⊢
  rw [hused, ← encode_eq] at hne ⊢
  rw [List.length_append, List.length_replicate]
  have hk : k ≠ 0 := by
    rintro rfl
    exact hne rfl
  omega

/-- The codec is exact: what is encoded is read back whatever follows it, no other encoding of a
value is as short, and the accepted inputs are the chains of at most ten octets that spell a
`u64`. -/
theorem codec_exact :
    (∀ (v : UInt64) (rest : List UInt8), decode (encode v ++ rest) = .ok (v, encodedLen v)) ∧
      (∀ (v : UInt64) (bs : List UInt8), decode bs = .ok (v, bs.length) → bs ≠ encode v →
        (encode v).length < bs.length) ∧
      ∀ (bs : List UInt8) (v n : Nat), (∃ w, decode bs = .ok (w, n) ∧ w.toNat = v) ↔
        1 ≤ n ∧ n ≤ 10 ∧ (∀ o ∈ bs.take (n - 1), o &&& 0x80 ≠ 0) ∧
          (∃ o, bs[n - 1]? = some o ∧ o &&& 0x80 = 0) ∧
          valueFrom 0 (bs.take n) = v ∧ v < 2 ^ 64 :=
  ⟨decode_encode_append, fun _ _ => length_encode_lt, fun _ _ _ => decode_ok_iff⟩

end HdyUtils.Ltp.Sdnv.Word
