import Mathlib

/-! Texts and their bytes. -/

namespace Utf8
open List Option

abbrev Bytes := List UInt8

def bytes (s : String) : Bytes := s.toByteArray.data.toList

def encode (cs : List Char) : Bytes := cs.flatMap String.utf8EncodeChar

/-- The character that the bytes start with. -/
def decodeChar? : Bytes → Option Char
  | [] => none
  | b :: rest =>
    if b < 128 then some (Char.ofNat b.toNat)
    else ByteArray.utf8DecodeChar? ((b :: rest).take 4).toByteArray 0

def decodeFrom : (fuel : ℕ) → Bytes → Option (List Char)
  | _, [] => some []
  | 0, _ :: _ => none
  | fuel + 1, b :: rest =>
    match decodeChar? (b :: rest) with
    | none => none
    | some c => (decodeFrom fuel ((b :: rest).drop c.utf8Size)).map (c :: ·)

def decode (b : Bytes) : Option (List Char) := decodeFrom b.length b

/-- The text of the bytes, when they are well formed. -/
def text? (b : Bytes) : Option String := (decode b).map String.ofList

/-- The characters of a text, read from its bytes. -/
def chars (s : String) : List Char := (decode (bytes s)).getD []

theorem bytes_ofList (cs : List Char) : bytes (String.ofList cs) = encode cs := by
  simp [bytes, encode, String.toByteArray_ofList, List.utf8Encode]

theorem bytes_eq (s : String) : bytes s = encode s.toList := by
  rw [← bytes_ofList, String.ofList_toList]

variable {c : Char} {cs : List Char}

theorem encodeChar_ascii (h : c.val.toNat ≤ 127) :
    String.utf8EncodeChar c = [UInt8.ofNat c.val.toNat] := by
  simp only [String.utf8EncodeChar]
  rw [if_pos h]

theorem decodeChar?_ascii (h : c.val.toNat ≤ 127) (rest : Bytes) :
    decodeChar? (String.utf8EncodeChar c ++ rest) = some c := by
  have hb : (UInt8.ofNat c.val.toNat).toNat = c.val.toNat := by
    rw [UInt8.toNat_ofNat']
    omega
  have hl : UInt8.ofNat c.val.toNat < 128 := by
    rw [UInt8.lt_iff_toNat_lt, hb]
    exact Nat.lt_succ_of_le h
  rw [encodeChar_ascii h, singleton_append, decodeChar?, if_pos hl, hb]
  exact congrArg some (Char.ofNat_toNat c)

theorem encodeChar_high (h : ¬c.val.toNat ≤ 127) {b : UInt8} (hb : b ∈ String.utf8EncodeChar c) :
    ¬b < 128 := by
  have hv : c.val.toNat < 0x110000 := by
    rcases c.valid with hl | ⟨-, hh⟩
    · exact Nat.lt_trans hl (by decide)
    · exact hh
  have hby : ∀ n, 128 ≤ n % 256 → ¬UInt8.ofNat n < 128 := by
    intro n hn hlt
    rw [UInt8.lt_iff_toNat_lt, UInt8.toNat_ofNat'] at hlt
    exact absurd (Nat.lt_of_le_of_lt hn hlt) (Nat.lt_irrefl 128)
  simp only [String.utf8EncodeChar] at hb
  rw [if_neg h] at hb
  split_ifs at hb
  all_goals
    simp only [mem_cons, not_mem_nil, or_false] at hb
    rcases hb with rfl | rfl | rfl | rfl <;> exact hby _ (by omega)

/-- Beyond ASCII the first byte is not an ASCII byte. -/
theorem encodeChar_head (h : ¬c.val.toNat ≤ 127) :
    ∃ b rest, String.utf8EncodeChar c = b :: rest ∧ ¬b < 128 := by
  obtain ⟨b, rest, he⟩ := exists_cons_of_ne_nil (String.utf8EncodeChar_ne_nil (c := c))
  exact ⟨b, rest, he, encodeChar_high h (by rw [he]; exact mem_cons_self)⟩

theorem length_encodeChar_le (c : Char) : (String.utf8EncodeChar c).length ≤ 4 := by
  rw [String.length_utf8EncodeChar]
  exact c.utf8Size_le_four

@[simp]
theorem decodeChar?_encodeChar (c : Char) (rest : Bytes) :
    decodeChar? (String.utf8EncodeChar c ++ rest) = some c := by
  by_cases h : c.val.toNat ≤ 127
  · exact decodeChar?_ascii h rest
  · obtain ⟨_, _, he, hh⟩ := encodeChar_head h
    have ht : (String.utf8EncodeChar c ++ rest).take 4 =
        String.utf8EncodeChar c ++ rest.take (4 - (String.utf8EncodeChar c).length) := by
      rw [take_append, take_of_length_le (length_encodeChar_le c)]
    rw [he, cons_append, decodeChar?, if_neg hh, ← cons_append, ← he, ht, toByteArray_append]
    exact ByteArray.utf8DecodeChar?_utf8EncodeChar_append

variable {b : Bytes}

theorem exists_of_decodeChar? (h : decodeChar? b = some c) :
    ∃ rest, b = String.utf8EncodeChar c ++ rest := by
  cases b with
  | nil => cases h
  | cons x b =>
    rw [decodeChar?] at h
    split_ifs at h with hlo
    · rw [UInt8.lt_iff_toNat_lt] at hlo
      have hx : x.toNat < 128 := hlo
      have hv : x.toNat.isValidChar := .inl (by omega)
      have hva : c.val.toNat = x.toNat := by
        rw [← some_inj.mp h, Char.ofNat, dif_pos hv]
        rfl
      refine ⟨b, ?_⟩
      rw [encodeChar_ascii (by omega), hva, UInt8.ofNat_toNat]
      rfl
    · obtain ⟨l, hl⟩ := ByteArray.exists_of_utf8DecodeChar?_eq_some h
      have ht : (x :: b).take 4 = String.utf8EncodeChar c ++ l.data.toList := by
        have hd := congrArg (fun a : ByteArray => a.data.toList) hl
        simpa using hd
      refine ⟨l.data.toList ++ (x :: b).drop 4, ?_⟩
      rw [← append_assoc, ← ht, take_append_drop]

theorem drop_encodeChar (c : Char) (rest : Bytes) :
    (String.utf8EncodeChar c ++ rest).drop c.utf8Size = rest := by
  rw [← String.length_utf8EncodeChar, drop_left]

theorem decodeFrom_append (c : Char) (rest : Bytes) (fuel : ℕ) :
    decodeFrom (fuel + 1) (String.utf8EncodeChar c ++ rest) =
      (decodeFrom fuel rest).map (c :: ·) := by
  cases ht : String.utf8EncodeChar c ++ rest with
  | nil =>
    have hd := decodeChar?_encodeChar c rest
    rw [ht] at hd
    cases hd
  | cons => simp only [decodeFrom, ← ht, decodeChar?_encodeChar, drop_encodeChar]

theorem decodeFrom_encode (cs : List Char) (fuel : ℕ) (h : cs.length ≤ fuel) :
    decodeFrom fuel (encode cs) = some cs := by
  induction cs generalizing fuel with
  | nil => cases fuel <;> rfl
  | cons _ _ ih =>
    obtain ⟨fuel, rfl⟩ : ∃ k, fuel = k + 1 := ⟨fuel - 1, by rw [length_cons] at h; omega⟩
    rw [encode, flatMap_cons, decodeFrom_append, ← encode,
      ih fuel (Nat.le_of_succ_le_succ h), map_some]

theorem length_le_encode (cs : List Char) : cs.length ≤ (encode cs).length := by
  induction cs with
  | nil => exact Nat.le_refl 0
  | cons c =>
    have hc := c.utf8Size_pos
    rw [encode, flatMap_cons, length_append, String.length_utf8EncodeChar, length_cons, ← encode]
    omega

@[simp]
theorem decode_encode (cs : List Char) : decode (encode cs) = some cs :=
  decodeFrom_encode cs _ (length_le_encode cs)

@[simp]
theorem text?_bytes (s : String) : text? (bytes s) = some s := by
  rw [text?, bytes_eq, decode_encode, map_some, String.ofList_toList]

@[simp]
theorem chars_eq (s : String) : chars s = s.toList := by
  rw [chars, bytes_eq, decode_encode, getD_some]

theorem encode_of_decodeFrom {fuel : ℕ} (h : decodeFrom fuel b = some cs) : encode cs = b := by
  induction fuel generalizing b cs with
  | zero =>
    cases b with
    | nil => cases h; rfl
    | cons => cases h
  | succ _ ih =>
    cases b with
    | nil => cases h; rfl
    | cons x b =>
      rw [decodeFrom] at h
      cases hc : decodeChar? (x :: b) with
      | none => simp [hc] at h
      | some =>
        obtain ⟨_, hr⟩ := exists_of_decodeChar? hc
        simp only [hc] at h
        rw [hr, drop_encodeChar] at h
        obtain ⟨_, hd, rfl⟩ := map_eq_some_iff.mp h
        rw [hr, encode, flatMap_cons, ← encode, ih hd]

theorem encode_of_decode (h : decode b = some cs) : encode cs = b :=
  encode_of_decodeFrom h

theorem bytes_injective : Function.Injective bytes := by
  intro s t h
  have hs := text?_bytes s
  rw [h, text?_bytes] at hs
  exact (some_inj.mp hs).symm

/-! ASCII bytes in texts. -/

theorem encode_cons (c : Char) (cs : List Char) :
    encode (c :: cs) = String.utf8EncodeChar c ++ encode cs := rfl

theorem encode_append (cs ds : List Char) : encode (cs ++ ds) = encode cs ++ encode ds :=
  flatMap_append

/-- An ASCII byte stands for the ASCII character alone. -/
theorem mem_encodeChar_ascii {b : UInt8} (hb : b < 128) (h : b ∈ String.utf8EncodeChar c) :
    c.val.toNat = b.toNat ∧ String.utf8EncodeChar c = [b] := by
  by_cases hc : c.val.toNat ≤ 127
  · rw [encodeChar_ascii hc, mem_singleton] at h
    refine ⟨?_, by rw [encodeChar_ascii hc, h]⟩
    rw [h, UInt8.toNat_ofNat']
    omega
  · exact absurd hb (encodeChar_high hc h)

theorem not_mem_encode {b : UInt8} (hb : b < 128) (h : ∀ c ∈ cs, c.val.toNat ≠ b.toNat) :
    b ∉ encode cs := by
  intro hm
  obtain ⟨c, hc, hby⟩ := mem_flatMap.mp hm
  exact h c hc (mem_encodeChar_ascii hb hby).1

/-- Text can be cut at an ASCII byte. -/
theorem exists_of_encode_eq {xs ys : Bytes} {b : UInt8} (hb : b < 128)
    (h : encode cs = xs ++ b :: ys) : ∃ front back, encode front = xs ∧ encode back = ys := by
  induction cs generalizing xs with
  | nil => simp [encode] at h
  | cons c cs ih =>
    rw [encode_cons] at h
    obtain ⟨zs, hx, hr⟩ | ⟨zs, hc, hr⟩ := append_eq_append_iff.mp h
    · obtain ⟨front, back, hf, hba⟩ := ih hr
      exact ⟨c :: front, back, by rw [encode_cons, hf, hx], hba⟩
    · cases zs with
      | nil =>
        have he : encode cs = [] ++ b :: ys := by simpa using hr.symm
        obtain ⟨front, back, hf, hba⟩ := ih he
        refine ⟨c :: front, back, ?_, hba⟩
        rw [encode_cons, hf, hc, append_nil, append_nil]
      | cons =>
        obtain ⟨rfl, hy⟩ := List.cons.inj hr
        have hs := (mem_encodeChar_ascii hb (by rw [hc]; simp)).2
        have hx : xs = [] := by
          cases xs with
          | nil => rfl
          | cons =>
            rw [hc] at hs
            simp at hs
        subst hx
        rw [nil_append] at hc
        rw [hc] at hs
        obtain ⟨-, rfl⟩ := List.cons.inj hs
        exact ⟨[], cs, rfl, hy.symm⟩

/-! Decoding that never fails. -/

def isContinuation (b : UInt8) : Bool := 0x80 ≤ b && b ≤ 0xBF

/-- Whether the byte may follow the first byte of a sequence of three or four. -/
def maySecond (first second : UInt8) : Bool :=
  if first = 0xE0 then 0xA0 ≤ second && second ≤ 0xBF
  else if first = 0xED then 0x80 ≤ second && second ≤ 0x9F
  else if first = 0xF0 then 0x90 ≤ second && second ≤ 0xBF
  else if first = 0xF4 then 0x80 ≤ second && second ≤ 0x8F
  else isContinuation second

/-- The length of the bytes that are replaced together: as many as could still have started
a character. -/
def invalidWidth : Bytes → ℕ
  | first :: second :: rest =>
    if 0xE0 ≤ first ∧ first ≤ 0xEF then if maySecond first second then 2 else 1
    else if 0xF0 ≤ first ∧ first ≤ 0xF4 then
      if maySecond first second then if rest.head?.any isContinuation then 3 else 2 else 1
    else 1
  | _ => 1

def decodeLossyFrom : (fuel : ℕ) → Bytes → List Char
  | _, [] => []
  | 0, _ :: _ => []
  | fuel + 1, b :: rest =>
    match decodeChar? (b :: rest) with
    | some c => c :: decodeLossyFrom fuel ((b :: rest).drop c.utf8Size)
    | none => '\uFFFD' :: decodeLossyFrom fuel ((b :: rest).drop (invalidWidth (b :: rest)))

/-- `String::from_utf8_lossy`. -/
def decodeLossy (b : Bytes) : List Char := decodeLossyFrom b.length b

/-- Nothing is replaced in bytes that can be decoded. -/
theorem decodeLossyFrom_of_decodeFrom {fuel : ℕ} (h : decodeFrom fuel b = some cs) :
    decodeLossyFrom fuel b = cs := by
  induction fuel generalizing b cs with
  | zero =>
    cases b with
    | nil => exact Option.some.inj h
    | cons => cases h
  | succ _ ih =>
    cases b with
    | nil => exact Option.some.inj h
    | cons b rest =>
      rw [decodeFrom] at h
      rw [decodeLossyFrom]
      cases hc : decodeChar? (b :: rest) with
      | none => simp [hc] at h
      | some =>
        rw [hc] at h
        obtain ⟨_, hd, rfl⟩ := map_eq_some_iff.mp h
        rw [← ih hd]

theorem decodeLossy_encode (cs : List Char) : decodeLossy (encode cs) = cs :=
  decodeLossyFrom_of_decodeFrom (decode_encode cs)

end Utf8
