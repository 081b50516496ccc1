import Notary.Lib.JsonPrint

/-! A printed value is read back, unless it nests too deep. -/

namespace Json
open List Option Nat Value

theorem hexValue_digitChar : ∀ n < 16, hexValue (Nat.digitChar n) = some n := by decide

variable {c : Char} {ws t : List Char}

theorem stringBody_plain (hq : c ≠ '"') (hb : c ≠ '\\') (hc : ¬c.toNat < 0x20)
    (rest : List Char) : stringBody (c :: rest) = push c (stringBody rest) := by
  rw [stringBody.eq_def]
  split
  · rename_i he
    cases he
  · rename_i he
    exact absurd (List.cons.inj he).1 hq
  · rename_i he
    exact absurd (List.cons.inj he).1 hb
  · rename_i he
    exact absurd (List.cons.inj he).1 hb
  · rename_i he
    obtain ⟨rfl, rfl⟩ := List.cons.inj he
    rw [if_neg hc]

theorem stringBody_control (hc : c.toNat < 0x20) (rest : List Char) :
    stringBody ('\\' :: 'u' :: '0' :: '0' :: Nat.digitChar (c.toNat / 16) ::
      Nat.digitChar (c.toNat % 16) :: rest) = push c (stringBody rest) := by
  have hhe : hex4 '0' '0' (Nat.digitChar (c.toNat / 16)) (Nat.digitChar (c.toNat % 16)) =
      some c.toNat := by
    have hz : hexValue '0' = some 0 := rfl
    simp only [hex4, hz, hexValue_digitChar (c.toNat / 16) (by omega),
      hexValue_digitChar (c.toNat % 16) (by omega), bind_eq_bind, bind_some,
      Option.some.injEq]
    omega
  have hl : ¬(0xDC00 ≤ c.toNat ∧ c.toNat ≤ 0xDFFF) := by omega
  have hh : ¬(0xD800 ≤ c.toNat ∧ c.toNat ≤ 0xDBFF) := by omega
  simp only [stringBody, hhe, if_neg hl, if_neg hh, Char.ofNat_toNat]

theorem stringBody_escapeChar (c : Char) (rest : List Char) :
    stringBody (escapeChar c ++ rest) = push c (stringBody rest) := by
  unfold escapeChar
  split_ifs with hq hba hb hf hn hr ht hc
  · rw [hq]; rfl
  · rw [hba]; rfl
  · rw [hb]; rfl
  · rw [hf]; rfl
  · rw [hn]; rfl
  · rw [hr]; rfl
  · rw [ht]; rfl
  · exact stringBody_control hc rest
  · exact stringBody_plain hq hba hc rest

theorem stringBody_quoted (cs rest : List Char) :
    stringBody (cs.flatMap escapeChar ++ '"' :: rest) = some (cs, rest) := by
  induction cs with
  | nil => rfl
  | cons _ _ ih =>
    rw [flatMap_cons, append_assoc, stringBody_escapeChar, ih]
    rfl

theorem skip_blank (hw : ∀ c ∈ ws, isSpace c) (t : List Char) : skip (ws ++ t) = skip t := by
  induction ws with
  | nil => rfl
  | cons c _ ih =>
    have hr := ih fun d hd => hw d (mem_cons_of_mem c hd)
    simpa [skip, hw c mem_cons_self] using hr

theorem skip_token (hc : isSpace c = false) (t : List Char) : skip (c :: t) = c :: t := by
  simp [skip, hc]

variable {F : Type} [Floats F]

theorem digits_toDigits (n : ℕ) : Literal.Digits (Nat.toDigits 10 n) :=
  ⟨toDigits_ne_nil, fun _ hc => isDigit_of_mem_toDigits (by decide) (by decide) hc⟩

theorem head_toDigits {n : ℕ} (h : (Nat.toDigits 10 n).head? = some '0') :
    Nat.toDigits 10 n = ['0'] := by
  induction n using Nat.strongRecOn with
  | _ n ih =>
    rcases Nat.lt_or_ge n 10 with hn | hn
    · rw [toDigits_of_lt_base hn] at h ⊢
      have hz : n.digitChar = '0' := some_inj.mp h
      rw [hz]
    · have hs := toDigits_of_base_le (by decide) hn
      rw [hs, head?_append_of_ne_nil _ toDigits_ne_nil] at h
      have hq := ih (n / 10) (by omega) h
      have hv := ofDigitChars_toDigits (b := 10) (n := n / 10) (by decide) (by decide)
      rw [hq] at hv
      have hz : n / 10 = 0 := hv.symm
      omega

theorem Number.literal_wellFormed (n : Number F) : n.literal.WellFormed := by
  cases n with
  | unsigned | negative =>
    exact ⟨digits_toDigits _, head_toDigits, by simp [literal], by simp [literal]⟩
  | float x => exact Floats.wellFormed x

theorem Number.ofLiteral_literal (n : Number F) : Number.ofLiteral n.literal = some n.reread := by
  cases n with
  | unsigned n =>
    have hv := ofDigitChars_toDigits (b := 10) (n := n.toNat) (by decide) (by decide)
    rw [ofLiteral, if_pos ⟨rfl, rfl, rfl, hv.trans_lt n.toNat_lt⟩]
    exact congrArg (some ∘ Number.unsigned) ((congrArg _ hv).trans UInt64.ofNat_toNat)
  | negative k =>
    have hv := ofDigitChars_toDigits (b := 10) (n := k.val + 1) (by decide) (by decide)
    simp [ofLiteral, literal, reread, hv]
  | float x =>
    have hfl : ¬((Floats.write x).fraction.isNone ∧ (Floats.write x).exponent.isNone) := by
      rintro ⟨hf, he⟩
      rcases Floats.isFloat x with h | h
      · rw [isNone_iff_eq_none.mp hf] at h
        cases h
      · rw [isNone_iff_eq_none.mp he] at h
        cases h
    obtain ⟨_, hy⟩ := isSome_iff_exists.mp (Floats.readable x)
    have hu : ¬((Floats.write x).fraction.isNone ∧ (Floats.write x).exponent.isNone ∧
        (Floats.write x).negative = false ∧
          Nat.ofDigitChars 10 (Floats.write x).whole 0 < 2 ^ 64) :=
      fun h => hfl ⟨h.1, h.2.1⟩
    have hn : ¬((Floats.write x).fraction.isNone ∧ (Floats.write x).exponent.isNone ∧
        (Floats.write x).negative = true ∧ 0 < Nat.ofDigitChars 10 (Floats.write x).whole 0 ∧
          Nat.ofDigitChars 10 (Floats.write x).whole 0 ≤ 2 ^ 63) :=
      fun h => hfl ⟨h.1, h.2.1⟩
    simp only [ofLiteral, literal, reread, if_neg hu, dif_neg hn, hy, map_some, get_some]

/-! Values. -/

theorem delimited_cons (hc : c ∈ [',', ']', '\x7d', ':']) (t : List Char) : Delimited (c :: t) := by
  intro d hd
  obtain rfl : c = d := some_inj.mp hd
  simp only [mem_cons, not_mem_nil, or_false] at hc
  rcases hc with rfl | rfl | rfl | rfl <;> decide

theorem delimited_blank (hw : ∀ c ∈ ws, isSpace c) (ht : Delimited t) : Delimited (ws ++ t) := by
  cases ws with
  | nil => exact ht
  | cons c =>
    intro d hd
    obtain rfl : c = d := some_inj.mp hd
    have hc := hw c mem_cons_self
    simp only [isSpace, Bool.or_eq_true, decide_eq_true_eq] at hc
    rcases hc with ((rfl | rfl) | rfl) | rfl <;> decide

theorem delimited_printRest (L : Layout) (level : ℕ) (vs : List (Value F)) (ht : Delimited t) :
    Delimited (printRest L level vs ++ t) := by
  cases vs with
  | nil => exact ht
  | cons => exact delimited_cons (by decide) _

theorem delimited_printMembers (L : Layout) (level : ℕ) (ms : List (String × Value F))
    (ht : Delimited t) : Delimited (printMembers L level ms ++ t) := by
  cases ms with
  | nil => exact ht
  | cons => exact delimited_cons (by decide) _

theorem digit_token (h : c.isDigit) :
    isSpace c = false ∧ c ∉ [']', '\x7d', '"', '[', '\x7b', 'n', 't', 'f'] := by
  have hr : 48 ≤ c.toNat ∧ c.toNat ≤ 57 := by simpa [Char.isDigit, UInt32.le_iff_toNat_le] using h
  have hn {d : Char} (hd : d.toNat < 48 ∨ 57 < d.toNat) : c ≠ d := by
    rintro rfl
    omega
  refine ⟨by simp [isSpace, hn], ?_⟩
  simp [hn]

theorem Literal.print_head {l : Literal} (hl : l.WellFormed) :
    ∃ c t, l.print = c :: t ∧ isSpace c = false ∧
      c ∉ [']', '\x7d', '"', '[', '\x7b', 'n', 't', 'f'] := by
  cases hn : l.negative with
  | true => exact ⟨'-', _, by rw [print, hn]; rfl, rfl, by decide⟩
  | false =>
    obtain ⟨d, _, hds⟩ := exists_cons_of_ne_nil hl.whole.1
    have hd : d.isDigit := hl.whole.2 d (by rw [hds]; exact mem_cons_self)
    exact ⟨d, _, by rw [print, hn, hds]; rfl, digit_token hd⟩

/-- No printed value starts with a blank or a closing bracket. -/
theorem Value.print_head (L : Layout) (level : ℕ) (v : Value F) :
    ∃ c t, v.print L level = c :: t ∧ isSpace c = false ∧ c ≠ ']' := by
  cases v with
  | null => exact ⟨'n', _, by rw [print]; rfl, rfl, by decide⟩
  | bool b =>
    cases b with
    | true => exact ⟨'t', _, by rw [print]; rfl, rfl, by decide⟩
    | false => exact ⟨'f', _, by rw [print]; rfl, rfl, by decide⟩
  | number n =>
    obtain ⟨c, t, hp, hs, hc⟩ := Literal.print_head n.literal_wellFormed
    exact ⟨c, t, by rw [print, hp], hs, fun h => hc (by rw [h]; decide)⟩
  | string => exact ⟨'"', _, by rw [print]; rfl, rfl, by decide⟩
  | array vs =>
    cases vs with
    | nil => exact ⟨'[', _, by rw [print], rfl, by decide⟩
    | cons => exact ⟨'[', _, by rw [print]; rfl, rfl, by decide⟩
  | object ms =>
    cases ms with
    | nil => exact ⟨'\x7b', _, by rw [print], rfl, by decide⟩
    | cons => exact ⟨'\x7b', _, by rw [print]; rfl, rfl, by decide⟩

theorem Value.print_length_pos (L : Layout) (level : ℕ) (v : Value F) :
    0 < (v.print L level).length := by
  obtain ⟨_, _, hp, -⟩ := v.print_head L level
  rw [hp]
  exact succ_pos _

theorem skip_print (L : Layout) (level : ℕ) (v : Value F) (hw : ∀ c ∈ ws, isSpace c)
    (t : List Char) : skip (ws ++ (v.print L level ++ t)) = v.print L level ++ t := by
  obtain ⟨_, _, hp, hs, -⟩ := v.print_head L level
  rw [skip_blank hw, hp]
  exact skip_token hs _

/-- The parser of a number runs when the text starts with a sign or a digit. -/
theorem value_number (n : Number F) (fuel depth : ℕ) {rest : List Char} (hr : Delimited rest) :
    value (fuel + 1) depth (n.literal.print ++ rest) = some (.number n.reread, rest) := by
  have hl := literal_print n.literal_wellFormed hr
  obtain ⟨_, _, hp, hs, hc⟩ := Literal.print_head n.literal_wellFormed
  have hsk : skip (n.literal.print ++ rest) = n.literal.print ++ rest := by
    rw [hp]
    exact skip_token hs _
  rw [value.eq_def]
  dsimp only
  rw [hsk]
  split
  all_goals try (
    rename_i he
    rw [hp] at he
    have hh := (List.cons.inj he).1
    exact absurd (by rw [hh]; decide) hc)
  rw [hl]
  simp [Number.ofLiteral_literal]

theorem value_blank (hw : ∀ c ∈ ws, isSpace c) (fuel depth : ℕ) (t : List Char) :
    value (F := F) fuel depth (ws ++ t) = value fuel depth t := by
  cases fuel with
  | zero => rw [value, value]
  | succ => rw [value, value, skip_blank hw]

/-- The elements of a nonempty array as they are printed. -/
def Value.printAll (L : Layout) (level : ℕ) : List (Value F) → List Char
  | [] => []
  | v :: vs => v.print L (level + 1) ++ printRest L level vs

/-- The members of a nonempty object as they are printed. -/
def Value.printFields (L : Layout) (level : ℕ) : List (String × Value F) → List Char
  | [] => []
  | (k, v) :: ms => quote k ++ ':' :: L.colon ++ v.print L (level + 1) ++ printMembers L level ms

theorem value_array (L : Layout) (level fuel depth : ℕ) (v : Value F) (vs : List (Value F))
    (rest : List Char) :
    value (F := F) (fuel + 1) depth ((Value.array (v :: vs)).print L level ++ rest) =
      if depth ≤ 1 then none else (elements fuel (depth - 1) (L.opening level ++
        (printAll L level (v :: vs) ++ (L.closing level ++ ']' :: rest)))).map
          fun r => (.array r.1, r.2) := by
  have ht : (Value.array (v :: vs)).print L level ++ rest = '[' :: (L.opening level ++
      (v.print L (level + 1) ++ (printRest L level vs ++ (L.closing level ++ ']' :: rest)))) := by
    simp [print]
  have hs := skip_print L (level + 1) v (L.opening_blank level)
    (printRest L level vs ++ (L.closing level ++ ']' :: rest))
  obtain ⟨_, _, hp, -, hc⟩ := v.print_head L (level + 1)
  have hh : ¬((skip (L.opening level ++ (v.print L (level + 1) ++
      (printRest L level vs ++ (L.closing level ++ ']' :: rest))))).head? = some ']') := by
    rw [hs, hp]
    exact fun h => hc (some_inj.mp h)
  rw [ht, value, skip_token (by decide)]
  simp only [if_neg hh, printAll, append_assoc]

theorem value_object (L : Layout) (level fuel depth : ℕ) (m : String × Value F)
    (ms : List (String × Value F)) (rest : List Char) :
    value (F := F) (fuel + 1) depth ((Value.object (m :: ms)).print L level ++ rest) =
      if depth ≤ 1 then none else (members fuel (depth - 1) (L.opening level ++
        (printFields L level (m :: ms) ++ (L.closing level ++ '\x7d' :: rest)))).map
          fun r => (.object r.1, r.2) := by
  obtain ⟨k, v⟩ := m
  have ht : (Value.object ((k, v) :: ms)).print L level ++ rest = '\x7b' :: (L.opening level ++
      (printFields L level ((k, v) :: ms) ++ (L.closing level ++ '\x7d' :: rest))) := by
    simp [print, printFields]
  have hh : ¬((skip (L.opening level ++ (printFields L level ((k, v) :: ms) ++
      (L.closing level ++ '\x7d' :: rest)))).head? = some '\x7d') := by
    rw [skip_blank (L.opening_blank level)]
    exact fun h => absurd (some_inj.mp h) (by decide)
  rw [ht, value, skip_token (by decide)]
  simp only [if_neg hh]

theorem value_token (L : Layout) (level fuel depth : ℕ) (rest : List Char) :
    value (fuel + 1) depth ((Value.null : Value F).print L level ++ rest) =
      some ((.null : Value F), rest) ∧
    (∀ b, value (fuel + 1) depth ((Value.bool b : Value F).print L level ++ rest) =
      some ((.bool b : Value F), rest)) ∧
    ∀ s, value (fuel + 1) depth ((Value.string s : Value F).print L level ++ rest) =
      some ((.string s : Value F), rest) := by
  refine ⟨?_, fun b => ?_, fun s => ?_⟩
  · rw [print]
    show value (fuel + 1) depth ('n' :: 'u' :: 'l' :: 'l' :: rest) = _
    rw [value, skip_token (by decide)]
    rfl
  · cases b with
    | true =>
      rw [print]
      show value (fuel + 1) depth ('t' :: 'r' :: 'u' :: 'e' :: rest) = _
      rw [value, skip_token (by decide)]
      rfl
    | false =>
      rw [print]
      show value (fuel + 1) depth ('f' :: 'a' :: 'l' :: 's' :: 'e' :: rest) = _
      rw [value, skip_token (by decide)]
      rfl
  · have ht : (Value.string s : Value F).print L level ++ rest =
        '"' :: (s.toList.flatMap escapeChar ++ '"' :: rest) := by
      simp [print, quote]
    rw [ht, value, skip_token (by decide)]
    simp only [stringBody_quoted, map_some, String.ofList_toList]

theorem value_empty (L : Layout) (level fuel depth : ℕ) (rest : List Char) :
    (value (fuel + 1) depth ((Value.array [] : Value F).print L level ++ rest) =
      if depth ≤ 1 then none else some ((.array [] : Value F), rest)) ∧
    value (fuel + 1) depth ((Value.object [] : Value F).print L level ++ rest) =
      if depth ≤ 1 then none else some ((.object [] : Value F), rest) := by
  constructor
  · rw [print]
    show value (fuel + 1) depth ('[' :: ']' :: rest) = _
    rw [value, skip_token (by decide)]
    simp [skip_token (c := ']') (by decide)]
  · rw [print]
    show value (fuel + 1) depth ('\x7b' :: '\x7d' :: rest) = _
    rw [value, skip_token (by decide)]
    simp [skip_token (c := '\x7d') (by decide)]

theorem read_container {α β : Type} {r : Option α} {contents limit : ℕ} {x : α} {f : α → β}
    (h : 1 < limit → r = if contents < limit - 1 then some x else none) :
    (if limit ≤ 1 then none else r.map f) = if contents + 1 < limit then some (f x) else none := by
  by_cases hl : limit ≤ 1
  · rw [if_pos hl, if_neg (by omega)]
  · rw [if_neg hl, h (by omega)]
    by_cases hf : contents < limit - 1
    · rw [if_pos hf, if_pos (by omega)]
      rfl
    · rw [if_neg hf, if_neg (by omega)]
      rfl

/-- The text that a member spells before its value. -/
theorem members_key (k : String) {colon : List Char} (hw : ∀ c ∈ ws, isSpace c)
    (hc : ∀ c ∈ colon, isSpace c) (fuel depth : ℕ) (t : List Char) :
    members (F := F) (fuel + 1) depth (ws ++ (quote k ++ ':' :: colon ++ t)) =
      (value fuel depth t).bind fun (v, t) =>
        match skip t with
        | ',' :: rest => (members fuel depth rest).bind fun (ms, rest) => some ((k, v) :: ms, rest)
        | '\x7d' :: rest => some ([(k, v)], rest)
        | _ => none := by
  have ht : ws ++ (quote k ++ ':' :: colon ++ t) =
      ws ++ '"' :: (k.toList.flatMap escapeChar ++ '"' :: ':' :: (colon ++ t)) := by
    simp [quote]
  rw [ht, members, skip_blank hw, skip_token (by decide)]
  simp only [stringBody_quoted, bind_eq_bind, bind_some, skip_token (c := ':') (by decide),
    String.ofList_toList]
  exact congrArg (Option.bind · _) (value_blank hc fuel depth t)

theorem read_next {α β : Type} {r : Option α} {one others limit : ℕ} {x : α} {f : α → β}
    (hon : one < limit) (h : r = if others < limit then some x else none) :
    (r.bind fun a => some (f a)) = if max one others < limit then some (f x) else none := by
  rw [h]
  by_cases ho : others < limit
  · rw [if_pos ho, if_pos (max_lt hon ho)]
    rfl
  · rw [if_neg ho, if_neg fun hm => ho (lt_of_le_of_lt (le_max_right _ _) hm)]
    rfl

mutual

/-- The parser reads a printed value back exactly when it does not nest too deep. -/
theorem value_print (L : Layout) : ∀ (v : Value F) (level fuel depth : ℕ) (rest : List Char),
    0 < depth → (v.print L level).length ≤ fuel → Delimited rest →
    value fuel depth (v.print L level ++ rest) =
      if v.depth < depth then some (v.reread, rest) else none
  | v, level, 0, _, _, _, hf, _ => absurd hf (by have := v.print_length_pos L level; omega)
  | .null, level, fuel + 1, depth, rest, hd, _, _ => by
    simp [(value_token (F := F) L level fuel depth rest).1, Value.depth, reread, hd]
  | .bool b, level, fuel + 1, depth, rest, hd, _, _ => by
    simp [(value_token (F := F) L level fuel depth rest).2.1 b, Value.depth, reread, hd]
  | .number n, level, fuel + 1, depth, rest, hd, _, hr => by
    rw [print, value_number n fuel depth hr]
    simp [Value.depth, reread, hd]
  | .string s, level, fuel + 1, depth, rest, hd, _, _ => by
    simp [(value_token (F := F) L level fuel depth rest).2.2 s, Value.depth, reread, hd]
  | .array [], level, fuel + 1, depth, rest, _, _, _ => by
    rw [(value_empty (F := F) L level fuel depth rest).1]
    simp only [Value.depth, depths, reread, rereadAll]
    exact read_container (f := fun _ => (Value.array [], rest)) (x := ())
      fun h => (if_pos (by omega)).symm
  | .array (v :: vs), level, fuel + 1, depth, rest, _, hf, _ => by
    have hl : (printAll L level (v :: vs)).length + 1 ≤ fuel := by
      simp only [print, length_append, length_cons, length_nil] at hf
      simp only [printAll, length_append]
      omega
    rw [value_array, Value.depth, reread]
    exact read_container fun h => elements_print L (v :: vs) level fuel (depth - 1)
      (L.opening level) rest (L.opening_blank level) (cons_ne_nil _ _) (by omega) hl
  | .object [], level, fuel + 1, depth, rest, _, _, _ => by
    rw [(value_empty (F := F) L level fuel depth rest).2]
    simp only [Value.depth, memberDepths, reread, rereadMembers]
    exact read_container (f := fun _ => (Value.object [], rest)) (x := ())
      fun h => (if_pos (by omega)).symm
  | .object (m :: ms), level, fuel + 1, depth, rest, _, hf, _ => by
    have hl : (printFields L level (m :: ms)).length + 1 ≤ fuel := by
      simp only [print, length_append, length_cons, length_nil] at hf
      simp only [printFields, length_append, length_cons]
      omega
    rw [value_object, Value.depth, reread]
    exact read_container fun h => members_print L (m :: ms) level fuel (depth - 1)
      (L.opening level) rest (L.opening_blank level) (cons_ne_nil _ _) (by omega) hl

theorem elements_print (L : Layout) : ∀ (vs : List (Value F)) (level fuel depth : ℕ)
    (ws rest : List Char), (∀ c ∈ ws, isSpace c) → vs ≠ [] → 0 < depth →
    (printAll L level vs).length + 1 ≤ fuel →
    elements fuel depth (ws ++ (printAll L level vs ++ (L.closing level ++ ']' :: rest))) =
      if depths vs < depth then some (rereadAll vs, rest) else none
  | [], _, _, _, _, _, _, hn, _, _ => absurd rfl hn
  | _ :: _, _, 0, _, _, _, _, _, _, hf => absurd hf (by omega)
  | v :: vs, level, fuel + 1, depth, ws, rest, hw, _, hd, hf => by
    have ha : Delimited (printRest L level vs ++ (L.closing level ++ ']' :: rest)) :=
      delimited_printRest L level vs
        (delimited_blank (L.closing_blank level) (delimited_cons (by decide) rest))
    have hl : (v.print L (level + 1)).length + (printRest L level vs).length ≤ fuel := by
      simp only [printAll, length_append] at hf
      omega
    have hva := value_print L v (level + 1) fuel depth _ hd (by omega) ha
    rw [elements, printAll, append_assoc, value_blank hw, hva, depths, rereadAll]
    by_cases hv : v.depth < depth
    · rw [if_pos hv]
      simp only [bind_eq_bind, bind_some]
      cases vs with
      | nil =>
        have hs : skip (L.closing level ++ ']' :: rest) = ']' :: rest := by
          rw [skip_blank (L.closing_blank level), skip_token (by decide)]
        simp [printRest, hs, depths, rereadAll, hv]
      | cons w ws' =>
        have hr := elements_print L (w :: ws') level fuel depth (L.separator level) rest
          (L.separator_blank level) (cons_ne_nil _ _) hd (by
            simp only [printRest, printAll, length_append, length_cons] at hl ⊢
            omega)
        have hs : skip (printRest L level (w :: ws') ++ (L.closing level ++ ']' :: rest)) =
            ',' :: (L.separator level ++ (printAll L level (w :: ws') ++
              (L.closing level ++ ']' :: rest))) := by
          simp only [printRest, printAll, append_assoc, cons_append]
          exact skip_token (by decide) _
        rw [hs]
        exact read_next (f := fun r => (v.reread :: r.1, r.2)) hv hr
    · have hm : ¬max v.depth (depths vs) < depth := by omega
      rw [if_neg hv, if_neg hm]
      rfl

theorem members_print (L : Layout) : ∀ (ms : List (String × Value F)) (level fuel depth : ℕ)
    (ws rest : List Char), (∀ c ∈ ws, isSpace c) → ms ≠ [] → 0 < depth →
    (printFields L level ms).length + 1 ≤ fuel → members fuel depth
      (ws ++ (printFields L level ms ++ (L.closing level ++ '\x7d' :: rest))) =
      if memberDepths ms < depth then some (rereadMembers ms, rest) else none
  | [], _, _, _, _, _, _, hn, _, _ => absurd rfl hn
  | _ :: _, _, 0, _, _, _, _, _, _, hf => absurd hf (by omega)
  | (k, v) :: ms, level, fuel + 1, depth, ws, rest, hw, _, hd, hf => by
    have ha : Delimited (printMembers L level ms ++ (L.closing level ++ '\x7d' :: rest)) :=
      delimited_printMembers L level ms
        (delimited_blank (L.closing_blank level) (delimited_cons (by decide) rest))
    have hl : (v.print L (level + 1)).length + (printMembers L level ms).length ≤
        fuel := by
      simp only [printFields, length_append, length_cons] at hf
      omega
    have hva := value_print L v (level + 1) fuel depth _ hd (by omega) ha
    have ht : printFields L level ((k, v) :: ms) ++ (L.closing level ++ '\x7d' :: rest) =
        quote k ++ ':' :: L.colon ++ (v.print L (level + 1) ++
          (printMembers L level ms ++ (L.closing level ++ '\x7d' :: rest))) := by
      simp only [printFields, append_assoc, cons_append]
    rw [ht, members_key k hw L.colon_blank, hva, memberDepths, rereadMembers]
    by_cases hv : v.depth < depth
    · rw [if_pos hv]
      simp only [bind_some]
      cases ms with
      | nil =>
        have hs : skip (L.closing level ++ '\x7d' :: rest) = '\x7d' :: rest := by
          rw [skip_blank (L.closing_blank level), skip_token (by decide)]
        simp [printMembers, hs, memberDepths, rereadMembers, hv]
      | cons m ms' =>
        have hr := members_print L (m :: ms') level fuel depth (L.separator level) rest
          (L.separator_blank level) (cons_ne_nil _ _) hd (by
            simp only [printMembers, printFields, length_append, length_cons] at hl ⊢
            omega)
        have hs : skip (printMembers L level (m :: ms') ++ (L.closing level ++ '\x7d' :: rest)) =
            ',' :: (L.separator level ++ (printFields L level (m :: ms') ++
              (L.closing level ++ '\x7d' :: rest))) := by
          simp only [printMembers, printFields, append_assoc, cons_append]
          exact skip_token (by decide) _
        rw [hs]
        exact read_next (f := fun r => ((k, v.reread) :: r.1, r.2)) hv hr
    · have hm : ¬max v.depth (memberDepths ms) < depth := by omega
      rw [if_neg hv, if_neg hm]
      rfl

end

/-- A printed value is read back exactly when it nests less than the limit. -/
theorem document_print (L : Layout) (v : Value F) (hw : ∀ c ∈ ws, isSpace c) :
    document (v.print L 0 ++ ws) = if v.depth < nestingLimit then some v.reread else none := by
  have ha : Delimited ws := by
    have hb := delimited_blank hw (t := []) (fun _ h => nomatch h)
    rwa [append_nil] at hb
  have hs : skip ws = [] := by
    have hb := skip_blank hw []
    rwa [append_nil] at hb
  have hv := value_print L v 0 ((v.print L 0 ++ ws).length + 1) nestingLimit ws
    (by decide) (by rw [length_append]; omega) ha
  rw [document, hv]
  by_cases hd : v.depth < nestingLimit
  · rw [if_pos hd, if_pos hd]
    simp [hs]
  · rw [if_neg hd, if_neg hd]
    rfl

theorem Value.rereadAll_of_fixed (vs : List (Value F)) (h : ∀ v ∈ vs, v.reread = v) :
    rereadAll vs = vs := by
  induction vs with
  | nil => rw [rereadAll]
  | cons v _ ih => rw [rereadAll, h v mem_cons_self, ih fun w hw => h w (mem_cons_of_mem v hw)]

end Json
