import Mathlib

/-! Self-delimiting numeric values (`sdnv.rs`): big-endian base 128, seven bits of the value in each
octet and the continuation bit `0x80` on every octet but the last.  Values are `u64`, so the codec
is stated for naturals below `2^64`, and an encoding has at most ten octets. -/

namespace HdyUtils.Ltp.Sdnv

/-- The longest accepted encoding, in octets. -/
def maxLen : Nat := 10

inductive Error
  | truncated
  | overflow
deriving DecidableEq, Repr

/-- The number of octets in the canonical encoding of `v`. -/
def encodedLen (v : Nat) : Nat :=
  let bits := Nat.log2 (v ||| 1) + 1
  (bits + 6) / 7

/-- Octet `i` of the `n` octets that encode `v`. -/
def octet (v n i : Nat) : UInt8 :=
  let shift := 7 * (n - 1 - i)
  let group := UInt8.ofNat ((v >>> shift) &&& 0x7F)
  let cont : UInt8 := if i + 1 = n then 0x00 else 0x80
  cont ||| group

/-- The octets that `encode_to_array` fills, without the unused rest of its array. -/
def encodeToArray (v : Nat) : List UInt8 :=
  if v < 0x80 then [UInt8.ofNat v]
  else
    let n := encodedLen v
    (List.range n).map (octet v n)

/-- The canonical encoding that `encode` appends to its output. -/
def encode (v : Nat) : List UInt8 := encodeToArray v

/-- The loop of `decode` from octet `i` on, with the value `acc` of the octets before it.  `len` is
the length of the whole input. -/
def decodeLoop (len : Nat) : List UInt8 → Nat → Nat → Except Error (Nat × Nat)
  | [], _, _ => if maxLen ≤ len then .error .overflow else .error .truncated
  | b :: bs, i, acc =>
    if i = maxLen then .error .overflow
    else if acc >>> 57 ≠ 0 then .error .overflow
    else
      let acc := (acc <<< 7) ||| (b &&& 0x7F).toNat
      if b &&& 0x80 = 0 then .ok (acc, i + 1) else decodeLoop len bs (i + 1) acc

/-- Decodes one value from the start of `input`: the value and the number of octets consumed. -/
def decode (input : List UInt8) : Except Error (Nat × Nat) :=
  match input with
  | first :: _ =>
    if first &&& 0x80 = 0 then .ok (first.toNat, 1) else decodeLoop input.length input 0 0
  | [] => decodeLoop 0 [] 0 0

/-! ### Octets as digits -/

theorem toNat_and_low (b : UInt8) : (b &&& 0x7F).toNat = b.toNat % 128 := by
  rw [UInt8.toNat_and, show (0x7F : UInt8).toNat = 2 ^ 7 - 1 from rfl,
    Nat.and_two_pow_sub_one_eq_mod]

theorem and_high_eq_zero_iff (b : UInt8) : b &&& 0x80 = 0 ↔ b.toNat < 128 := by
  have h : ∀ n < 256, (UInt8.ofNat n &&& 0x80 = 0) ↔ n < 128 := by decide +kernel
  have hb := h b.toNat b.toNat_lt
  rwa [UInt8.ofNat_toNat] at hb

theorem toNat_octet (v n i : Nat) :
    (octet v n i).toNat =
      (if i + 1 = n then 0 else 128) + v / 2 ^ (7 * (n - 1 - i)) % 128 := by
  have hgroup : (v >>> (7 * (n - 1 - i))) &&& 0x7F = v / 2 ^ (7 * (n - 1 - i)) % 128 := by
    rw [Nat.shiftRight_eq_div_pow, show 0x7F = 2 ^ 7 - 1 from rfl, Nat.and_two_pow_sub_one_eq_mod]
  have hlt : v / 2 ^ (7 * (n - 1 - i)) % 128 < 2 ^ 7 := Nat.mod_lt _ (by decide)
  simp only [octet, hgroup, UInt8.toNat_or, UInt8.toNat_ofNat']
  rw [Nat.mod_eq_of_lt (show v / 2 ^ (7 * (n - 1 - i)) % 128 < 2 ^ 8 by omega)]
  split
  · simp
  · have h := Nat.two_pow_add_eq_or_of_lt hlt 1
    simpa using h.symm

theorem octet_continues (v n i : Nat) : octet v n i &&& 0x80 = 0 ↔ i + 1 = n := by
  rw [and_high_eq_zero_iff, toNat_octet]
  have hlt : v / 2 ^ (7 * (n - 1 - i)) % 128 < 128 := Nat.mod_lt _ (by decide)
  split <;> omega

/-- Appending octet `i` to the value of the octets before it gives the value up to octet `i`. -/
theorem shift_or_octet (v n i : Nat) (hi : i < n) :
    (v / 2 ^ (7 * (n - i))) <<< 7 ||| (octet v n i &&& 0x7F).toNat =
      v / 2 ^ (7 * (n - (i + 1))) := by
  have hlow : (octet v n i).toNat % 128 = v / 2 ^ (7 * (n - 1 - i)) % 128 := by
    rw [toNat_octet]
    split <;> omega
  have hdiv : v / 2 ^ (7 * (n - i)) = v / 2 ^ (7 * (n - (i + 1))) / 128 := by
    rw [Nat.div_div_eq_div_mul, show (128 : Nat) = 2 ^ 7 from rfl, ← Nat.pow_add]
    congr 2
    omega
  rw [toNat_and_low, hlow, Nat.sub_sub, Nat.add_comm 1 i, hdiv, Nat.shiftLeft_eq]
  have h := Nat.two_pow_add_eq_or_of_lt
    (show v / 2 ^ (7 * (n - (i + 1))) % 128 < 2 ^ 7 from Nat.mod_lt _ (by decide))
    (v / 2 ^ (7 * (n - (i + 1))) / 128)
  rw [Nat.mul_comm, ← h]
  exact Nat.div_add_mod _ _

/-! ### Lengths -/

theorem encodedLen_spec {v : Nat} (h : 128 ≤ v) :
    v < 2 ^ (7 * encodedLen v) ∧ 2 ≤ encodedLen v := by
  have hor : v ≤ v ||| 1 := Nat.left_le_or
  have hne : v ||| 1 ≠ 0 := by omega
  have hlt := Nat.lt_log2_self (n := v ||| 1)
  have hlog : 7 ≤ Nat.log2 (v ||| 1) := (Nat.le_log2 hne).mpr (by omega)
  refine ⟨?_, by simp only [encodedLen]; omega⟩
  calc v < 2 ^ (Nat.log2 (v ||| 1) + 1) := by omega
    _ ≤ 2 ^ (7 * encodedLen v) := Nat.pow_le_pow_right (by decide) (by simp only [encodedLen]; omega)

theorem encodedLen_pos (v : Nat) : 0 < encodedLen v := by
  simp only [encodedLen]
  omega

theorem encodedLen_le {v : Nat} (h : v < 2 ^ 64) : encodedLen v ≤ maxLen := by
  have hor : v ||| 1 < 2 ^ 64 := Nat.or_lt_two_pow h (by decide)
  have hlog : Nat.log2 (v ||| 1) < 64 := by
    by_cases hz : v ||| 1 = 0
    · simp [hz]
    · exact (Nat.log2_lt hz).mpr hor
  simp only [encodedLen, maxLen]
  omega

theorem length_encode_of_le {v : Nat} (h : 128 ≤ v) : (encode v).length = encodedLen v := by
  simp [encode, encodeToArray, show ¬v < 128 by omega]

theorem encode_length_pos (v : Nat) : 0 < (encode v).length := by
  by_cases h : v < 128
  · simp [encode, encodeToArray, h]
  · rw [length_encode_of_le (by omega)]
    have := (encodedLen_spec (v := v) (by omega)).2
    omega

/-! ### Round trip -/

/-- From octet `i` of an encoding on, the loop reads the rest of the value. -/
theorem decodeLoop_octets (len v : Nat) (rest : List UInt8) {n : Nat} (hn : n ≤ maxLen)
    (hv : v < 2 ^ 64) (k i : Nat) (hk : i + (k + 1) = n) :
    decodeLoop len ((List.range' i (k + 1)).map (octet v n) ++ rest) i
      (v / 2 ^ (7 * (n - i))) = .ok (v, n) := by
  induction k generalizing i with
  | zero =>
    have hguard : v / 2 ^ (7 * (n - i)) / 2 ^ 57 = 0 := by
      rw [show n - i = 1 by omega, Nat.div_div_eq_div_mul]
      exact Nat.div_eq_of_lt (by omega)
    have hlast := (octet_continues v n i).mpr (by omega)
    have hbound : i ≠ maxLen := by omega
    rw [List.range'_succ, List.map_cons, List.cons_append, decodeLoop,
      shift_or_octet v n i (by omega), show n - (i + 1) = 0 by omega]
    simp only [Nat.shiftRight_eq_div_pow, hguard, hlast, hbound, if_false, if_true, ne_eq,
      not_true_eq_false]
    simp [show i + 1 = n by omega]
  | succ k ih =>
    have hguard : v / 2 ^ (7 * (n - i)) / 2 ^ 57 = 0 := by
      rw [Nat.div_div_eq_div_mul]
      refine Nat.div_eq_of_lt (Nat.lt_of_lt_of_le hv ?_)
      rw [← Nat.pow_add]
      exact Nat.pow_le_pow_right (by decide) (by omega)
    have hmore := mt (octet_continues v n i).mp (by omega)
    have hbound : i ≠ maxLen := by omega
    rw [List.range'_succ, List.map_cons, List.cons_append, decodeLoop,
      shift_or_octet v n i (by omega)]
    simp only [Nat.shiftRight_eq_div_pow, hguard, hmore, hbound, if_false, ne_eq,
      not_true_eq_false]
    exact ih (i + 1) (by omega)

theorem decode_encode_append {v : Nat} (hv : v < 2 ^ 64) (rest : List UInt8) :
    decode (encode v ++ rest) = .ok (v, (encode v).length) := by
  by_cases h : v < 128
  · have hnat : (UInt8.ofNat v).toNat = v := by
      rw [UInt8.toNat_ofNat']
      omega
    simp [encode, encodeToArray, h, decode, and_high_eq_zero_iff, hnat]
  · obtain ⟨hpow, hlen⟩ := encodedLen_spec (v := v) (by omega)
    have hle := encodedLen_le hv
    obtain ⟨k, hk⟩ : ∃ k, encodedLen v = k + 1 := ⟨encodedLen v - 1, by omega⟩
    have henc : encode v = (List.range' 0 (k + 1)).map (octet v (encodedLen v)) := by
      simp only [encode, encodeToArray, h, if_false, hk, List.range_eq_range']
    have hloop := fun len => decodeLoop_octets len v rest hle hv k 0 (by omega)
    rw [Nat.sub_zero, Nat.div_eq_of_lt hpow, ← henc] at hloop
    have hfirst : ∃ bs, encode v ++ rest = octet v (encodedLen v) 0 :: bs := by
      rw [henc, List.range'_succ]
      exact ⟨_, rfl⟩
    obtain ⟨bs, hbs⟩ := hfirst
    have hmore := mt (octet_continues v (encodedLen v) 0).mp (by omega)
    rw [length_encode_of_le (by omega), ← hloop (encode v ++ rest).length, hbs, decode]
    simp only [hmore, if_false]

/-- A decoded value is a `u64`. -/
theorem decodeLoop_lt {len : Nat} {bs : List UInt8} {i acc v n : Nat}
    (h : decodeLoop len bs i acc = .ok (v, n)) : v < 2 ^ 64 := by
  induction bs generalizing i acc with
  | nil =>
    unfold decodeLoop at h
    split at h <;> cases h
  | cons b bs ih =>
    unfold decodeLoop at h
    split at h
    · cases h
    split at h
    · cases h
    rename_i hguard
    simp only at h
    split at h
    · cases h
      have hacc : acc < 2 ^ 57 := by
        rw [ne_eq, not_not, Nat.shiftRight_eq_div_pow] at hguard
        exact (Nat.div_eq_zero_iff.mp hguard).resolve_left (by decide)
      have hlow : (b &&& 0x7F).toNat < 2 ^ 7 := by
        rw [toNat_and_low]
        exact Nat.mod_lt _ (by decide)
      refine Nat.or_lt_two_pow ?_ (by omega)
      rw [Nat.shiftLeft_eq]
      omega
    · exact ih h

theorem decode_lt {bs : List UInt8} {v n : Nat} (h : decode bs = .ok (v, n)) : v < 2 ^ 64 := by
  unfold decode at h
  split at h
  · split at h
    · cases h
      have := UInt8.toNat_lt ‹UInt8›
      omega
    · exact decodeLoop_lt h
  · exact decodeLoop_lt h

/-! ### What decodes -/

theorem length_encode (v : Nat) : (encode v).length = encodedLen v := by
  by_cases h : v < 128
  · have hor : v ||| 1 < 2 ^ 7 := Nat.or_lt_two_pow h (by decide)
    have hne : v ||| 1 ≠ 0 := by
      have : v ≤ v ||| 1 := Nat.left_le_or
      have : 1 ≤ v ||| 1 := Nat.right_le_or
      omega
    have hlog : Nat.log2 (v ||| 1) < 7 := (Nat.log2_lt hne).mpr hor
    simp only [encode, encodeToArray, h, if_true, encodedLen, List.length_singleton]
    omega
  · exact length_encode_of_le (by omega)

/-- The octets of a leading part `acc` of a value, all of which continue. -/
def leading (acc : Nat) : List UInt8 :=
  if acc = 0 then [] else (encode acc).map (0x80 ||| ·)

theorem encodedLen_append {acc d : Nat} (hacc : 0 < acc) (hd : d < 128) :
    encodedLen (acc * 128 + d) = encodedLen acc + 1 := by
  have hone : ∀ v, 0 < v → Nat.log2 (v ||| 1) = Nat.log2 v := by
    intro v hv
    rw [Nat.log2_eq_iff (by have : v ≤ v ||| 1 := Nat.left_le_or; omega)]
    refine ⟨?_, Nat.or_lt_two_pow Nat.lt_log2_self ?_⟩
    · exact (Nat.log2_self_le hv.ne').trans Nat.left_le_or
    · exact Nat.one_lt_two_pow (by omega)
  have hlog : Nat.log2 (acc * 128 + d) = Nat.log2 acc + 7 := by
    have hlow := Nat.log2_self_le hacc.ne'
    have hhigh := Nat.lt_log2_self (n := acc)
    have hpow : ∀ k, 2 ^ (k + 7) = 2 ^ k * 128 := fun k => by rw [Nat.pow_add]
    rw [Nat.log2_eq_iff (by omega), Nat.add_right_comm, hpow, hpow]
    omega
  simp only [encodedLen, hone acc hacc, hone (acc * 128 + d) (by omega), hlog]
  omega

/-- Every value is encoded octet by octet. -/
theorem encode_eq_map (v : Nat) :
    encode v = (List.range (encodedLen v)).map (octet v (encodedLen v)) := by
  by_cases h : v < 128
  · have hlen : encodedLen v = 1 := by
      rw [← length_encode]
      simp [encode, encodeToArray, h]
    have hoctet : octet v 1 0 = UInt8.ofNat v := by
      apply UInt8.toNat_inj.mp
      rw [toNat_octet, UInt8.toNat_ofNat']
      simp
      omega
    simp [hlen, encode, encodeToArray, h, hoctet]
  · simp only [encode, encodeToArray, h, if_false]

/-- The octets of a value are those of its leading part and a last one. -/
theorem encode_append {acc d : Nat} (hd : d < 128) :
    encode (acc * 128 + d) = leading acc ++ [UInt8.ofNat d] := by
  rcases Nat.eq_zero_or_pos acc with rfl | hacc
  · simp [encode, encodeToArray, leading, hd]
  have hoctet : ∀ i < encodedLen acc, octet (acc * 128 + d) (encodedLen acc + 1) i =
      0x80 ||| octet acc (encodedLen acc) i := by
    intro i hi
    have hor : ∀ n < 256, (0x80 ||| UInt8.ofNat n).toNat = 128 + n % 128 := by decide +kernel
    have hpow : 2 ^ (7 * (encodedLen acc + 1 - 1 - i)) = 128 * 2 ^ (7 * (encodedLen acc - 1 - i)) := by
      rw [show encodedLen acc + 1 - 1 - i = (encodedLen acc - 1 - i) + 1 by omega, Nat.mul_add,
        Nat.pow_add, Nat.mul_comm]
    have hdiv : (acc * 128 + d) / 2 ^ (7 * (encodedLen acc + 1 - 1 - i)) =
        acc / 2 ^ (7 * (encodedLen acc - 1 - i)) := by
      rw [hpow, ← Nat.div_div_eq_div_mul]
      congr 1
      omega
    have hlow := toNat_octet acc (encodedLen acc) i
    have hval := hor (octet acc (encodedLen acc) i).toNat (UInt8.toNat_lt _)
    rw [UInt8.ofNat_toNat] at hval
    apply UInt8.toNat_inj.mp
    rw [hval, toNat_octet, if_neg (by omega), hdiv, hlow]
    split <;> omega
  have hlast : octet (acc * 128 + d) (encodedLen acc + 1) (encodedLen acc) = UInt8.ofNat d := by
    apply UInt8.toNat_inj.mp
    rw [toNat_octet, UInt8.toNat_ofNat']
    simp
    omega
  rw [encode_eq_map, encodedLen_append hacc hd, List.range_succ, List.map_append,
    List.map_singleton, hlast, leading, if_neg (by omega), encode_eq_map, List.map_map]
  congr 1
  exact List.map_congr_left fun i hi => hoctet i (List.mem_range.mp hi)

/-- Continuing a leading part by an octet. -/
theorem leading_append {acc d : Nat} (hd : d < 128) (hne : acc * 128 + d ≠ 0) :
    leading (acc * 128 + d) = leading acc ++ [0x80 ||| UInt8.ofNat d] := by
  have hidem : ∀ b : UInt8, 0x80 ||| (0x80 ||| b) = 0x80 ||| b := fun b => by
    rw [← UInt8.or_assoc, UInt8.or_self]
  rw [leading, if_neg hne, encode_append hd, List.map_append, List.map_singleton]
  congr 1
  unfold leading
  split
  · rfl
  · rw [List.map_map]
    exact List.map_congr_left fun b _ => hidem b

/-- What the loop reads is an encoding with octets `0x80` in front, and more input does not change
it. -/
theorem decodeLoop_spells {len : Nat} {bs : List UInt8} {i acc v n : Nat}
    (h : decodeLoop len bs i acc = .ok (v, n)) :
    ∃ used rest k, bs = used ++ rest ∧ n = i + used.length ∧
      leading acc ++ used = List.replicate k 0x80 ++ encode v ∧
      ∀ len' r, decodeLoop len' (bs ++ r) i acc = .ok (v, n) := by
  induction bs generalizing i acc with
  | nil =>
    unfold decodeLoop at h
    split at h <;> cases h
  | cons b bs ih =>
    unfold decodeLoop at h
    split at h
    · cases h
    rename_i hi
    split at h
    · cases h
    rename_i hguard
    have hstep : (acc <<< 7) ||| (b &&& 0x7F).toNat = acc * 128 + b.toNat % 128 := by
      have hor := Nat.two_pow_add_eq_or_of_lt
        (show b.toNat % 128 < 2 ^ 7 from Nat.mod_lt _ (by decide)) acc
      rw [toNat_and_low, Nat.shiftLeft_eq, Nat.mul_comm, ← hor, Nat.mul_comm]
    have hlt : b.toNat % 128 < 128 := Nat.mod_lt _ (by decide)
    simp only [hstep] at h
    split at h
    · rename_i hlast
      have hb := (and_high_eq_zero_iff b).mp hlast
      cases h
      refine ⟨[b], bs, 0, rfl, rfl, ?_, fun len' r => ?_⟩
      · rw [encode_append hlt, Nat.mod_eq_of_lt hb, UInt8.ofNat_toNat]
        rfl
      · rw [List.cons_append, decodeLoop, if_neg hi, if_neg hguard]
        simp only [hstep, hlast, if_true]
    · rename_i hmore
      have hb : 0x80 ||| UInt8.ofNat (b.toNat % 128) = b := by
        have hbyte : ∀ n < 256, 128 ≤ n → 0x80 ||| UInt8.ofNat (n % 128) = UInt8.ofNat n := by
          decide +kernel
        have hge : 128 ≤ b.toNat := Nat.not_lt.mp (mt (and_high_eq_zero_iff b).mpr hmore)
        rw [hbyte b.toNat b.toNat_lt hge, UInt8.ofNat_toNat]
      obtain ⟨used, rest, k, rfl, rfl, hspells, hmono⟩ := ih h
      refine ⟨b :: used, rest, if acc * 128 + b.toNat % 128 = 0 then k + 1 else k, rfl,
        by rw [List.length_cons]; omega, ?_, fun len' r => ?_⟩
      · split
        · rename_i hzero
          have hacc : acc = 0 := by omega
          have hlow : b.toNat % 128 = 0 := by omega
          rw [hlow] at hb
          rw [hzero] at hspells
          subst hacc
          simp only [leading, if_true, List.nil_append] at hspells ⊢
          rw [hspells, ← hb]
          rfl
        · rename_i hne
          rw [leading_append hlt hne, hb, List.append_assoc] at hspells
          exact hspells
      · rw [List.cons_append, decodeLoop, if_neg hi, if_neg hguard]
        simp only [hstep, hmore, if_false]
        exact hmono len' r

/-- What decodes is an encoding with octets `0x80` in front, and more input does not change it. -/
theorem decode_spells {bs : List UInt8} {v n : Nat} (h : decode bs = .ok (v, n)) :
    ∃ used rest k, bs = used ++ rest ∧ n = used.length ∧
      used = List.replicate k 0x80 ++ encode v ∧ ∀ r, decode (bs ++ r) = .ok (v, n) := by
  have hloop : ∀ len, decodeLoop len bs 0 0 = .ok (v, n) → bs ≠ [] →
      (∀ b bs', bs = b :: bs' → b &&& 0x80 ≠ 0) →
      ∃ used rest k, bs = used ++ rest ∧ n = used.length ∧
        used = List.replicate k 0x80 ++ encode v ∧ ∀ r, decode (bs ++ r) = .ok (v, n) := by
    intro len h hne hfirst
    obtain ⟨used, rest, k, heq, hn, hspells, hmono⟩ := decodeLoop_spells h
    refine ⟨used, rest, k, heq, by omega, by simpa [leading] using hspells, fun r => ?_⟩
    obtain ⟨b, bs', rfl⟩ := List.exists_cons_of_ne_nil hne
    rw [← hmono (b :: bs' ++ r).length r, List.cons_append, decode]
    simp only [hfirst b bs' rfl, if_false]
  unfold decode at h
  split at h
  · rename_i first bs'
    split at h
    · rename_i hlast
      cases h
      have hlt := (and_high_eq_zero_iff first).mp hlast
      refine ⟨[first], bs', 0, rfl, rfl, ?_, fun r => ?_⟩
      · simp [encode, encodeToArray, hlt]
      · simp [decode, hlast]
    · rename_i hmore
      refine hloop _ h (by simp) fun b bs'' heq => ?_
      cases heq
      exact hmore
  · unfold decodeLoop at h
    split at h <;> cases h

end HdyUtils.Ltp.Sdnv
