import Notary.Lib.Json

/-! The JSON printer and what the parser makes of its output. -/

namespace Json
open List Option

/-- The blank text between the tokens of a printed value. -/
structure Layout where
  opening : ℕ → List Char
  separator : ℕ → List Char
  colon : List Char
  closing : ℕ → List Char
  opening_blank : ∀ n, ∀ c ∈ opening n, isSpace c
  separator_blank : ∀ n, ∀ c ∈ separator n, isSpace c
  colon_blank : ∀ c ∈ colon, isSpace c
  closing_blank : ∀ n, ∀ c ∈ closing n, isSpace c

namespace Layout

/-- The layout of `serde_json::to_vec`. -/
def compact : Layout where
  opening _ := []
  separator _ := []
  colon := []
  closing _ := []
  opening_blank _ _ h := nomatch h
  separator_blank _ _ h := nomatch h
  colon_blank _ h := nomatch h
  closing_blank _ _ h := nomatch h

end Layout

def Literal.printFraction : Option (List Char) → List Char
  | none => []
  | some ds => '.' :: ds

def Literal.printExponent : Option (Option Char × List Char) → List Char
  | none => []
  | some (sign, ds) => 'e' :: sign.toList ++ ds

def Literal.print (l : Literal) : List Char :=
  (if l.negative then ['-'] else []) ++ l.whole ++ printFraction l.fraction ++
    printExponent l.exponent

def escapeChar (c : Char) : List Char :=
  if c = '"' then ['\\', '"']
  else if c = '\\' then ['\\', '\\']
  else if c = '\x08' then ['\\', 'b']
  else if c = '\x0c' then ['\\', 'f']
  else if c = '\n' then ['\\', 'n']
  else if c = '\r' then ['\\', 'r']
  else if c = '\t' then ['\\', 't']
  else if c.toNat < 0x20 then
    ['\\', 'u', '0', '0', Nat.digitChar (c.toNat / 16), Nat.digitChar (c.toNat % 16)]
  else [c]

def quote (s : String) : List Char := '"' :: (Utf8.chars s).flatMap escapeChar ++ ['"']

variable {F : Type} [Floats F]

namespace Number

def literal : Number F → Literal
  | .unsigned n => ⟨false, Nat.toDigits 10 n.toNat, none, none⟩
  | .negative k => ⟨true, Nat.toDigits 10 (k.val + 1), none, none⟩
  | .float x => Floats.write x

/-- What the printed number is read as. -/
def reread : Number F → Number F
  | .float x => .float ((Floats.read (Floats.write x)).get (Floats.readable x))
  | n => n

end Number

namespace Value

mutual

def print (L : Layout) (level : ℕ) : Value F → List Char
  | .null => "null".toList
  | .bool true => "true".toList
  | .bool false => "false".toList
  | .number n => n.literal.print
  | .string s => quote s
  | .array [] => ['[', ']']
  | .array (v :: vs) => '[' :: L.opening level ++
      (v.print L (level + 1) ++ printRest L level vs) ++ L.closing level ++ [']']
  | .object [] => ['\x7b', '\x7d']
  | .object ((k, v) :: ms) => '\x7b' :: L.opening level ++
      (quote k ++ ':' :: L.colon ++ v.print L (level + 1) ++ printMembers L level ms) ++
        L.closing level ++ ['\x7d']

def printRest (L : Layout) (level : ℕ) : List (Value F) → List Char
  | [] => []
  | v :: vs => ',' :: L.separator level ++ (v.print L (level + 1) ++ printRest L level vs)

def printMembers (L : Layout) (level : ℕ) : List (String × Value F) → List Char
  | [] => []
  | (k, v) :: ms => ',' :: L.separator level ++
      (quote k ++ ':' :: L.colon ++ v.print L (level + 1) ++ printMembers L level ms)

end

mutual

/-- What the printed value is read as: the same but for its floats. -/
def reread : Value F → Value F
  | .number n => .number n.reread
  | .array vs => .array (rereadAll vs)
  | .object ms => .object (rereadMembers ms)
  | v => v

def rereadAll : List (Value F) → List (Value F)
  | [] => []
  | v :: vs => v.reread :: rereadAll vs

def rereadMembers : List (String × Value F) → List (String × Value F)
  | [] => []
  | (k, v) :: ms => (k, v.reread) :: rereadMembers ms

end

end Value

/-! Numbers. -/

/-- The text does not continue a number. -/
def Delimited (t : List Char) : Prop :=
  ∀ c, t.head? = some c → c.isDigit = false ∧ c ≠ '.' ∧ c ≠ 'e' ∧ c ≠ 'E'

theorem takeWhile_digits {ds t : List Char} (hds : ∀ c ∈ ds, c.isDigit)
    (ht : ∀ c, t.head? = some c → c.isDigit = false) :
    (ds ++ t).takeWhile Char.isDigit = ds ∧ (ds ++ t).dropWhile Char.isDigit = t := by
  induction ds with
  | nil =>
    cases t with
    | nil => exact ⟨rfl, rfl⟩
    | cons c => simp [ht c rfl]
  | cons d _ ih =>
    obtain ⟨hta, hd⟩ := ih fun c hc => hds c (mem_cons_of_mem d hc)
    simp [hds d mem_cons_self, hta, hd]

variable {rest : List Char}

theorem exponent_print {e : Option (Option Char × List Char)} (he : ∀ sign ds, e = some (sign, ds) →
      Literal.Digits ds ∧ ∀ c, sign = some c → c = '+' ∨ c = '-') (hr : Delimited rest) :
    exponent (Literal.printExponent e ++ rest) = some (e, rest) := by
  cases e with
  | none =>
    cases rest with
    | nil => rfl
    | cons c => simp [Literal.printExponent, exponent, hr c rfl]
  | some e =>
    obtain ⟨sign, ds⟩ := e
    obtain ⟨⟨hn, hds⟩, hsi⟩ := he sign ds rfl
    obtain ⟨ht, hdr⟩ := takeWhile_digits hds fun c hc => (hr c hc).1
    have hs : exponentSign (sign.toList ++ (ds ++ rest)) = (sign, ds ++ rest) := by
      cases sign with
      | some c => rcases hsi c rfl with rfl | rfl <;> rfl
      | none =>
        obtain ⟨d, ds, rfl⟩ := exists_cons_of_ne_nil hn
        have hd := hds d mem_cons_self
        show exponentSign (d :: (ds ++ rest)) = _
        unfold exponentSign
        split
        · rename_i heq
          obtain ⟨rfl, -⟩ := List.cons.inj heq
          cases hd
        · rename_i heq
          obtain ⟨rfl, -⟩ := List.cons.inj heq
          cases hd
        · rfl
    simp [Literal.printExponent, exponent, hs, ht, hdr, hn]

theorem fraction_print {f : Option (List Char)} (hf : ∀ ds, f = some ds → Literal.Digits ds)
    (hr : ∀ c, rest.head? = some c → c.isDigit = false ∧ c ≠ '.') :
    fraction (Literal.printFraction f ++ rest) = some (f, rest) := by
  cases f with
  | none =>
    cases rest with
    | nil => rfl
    | cons c rest =>
      show fraction (c :: rest) = _
      unfold fraction
      split
      · rename_i he
        obtain ⟨rfl, -⟩ := List.cons.inj he
        exact absurd rfl (hr _ rfl).2
      · rfl
  | some ds =>
    obtain ⟨hn, hds⟩ := hf ds rfl
    obtain ⟨ht, hd⟩ := takeWhile_digits hds fun c hc => (hr c hc).1
    simp [Literal.printFraction, fraction, ht, hd, hn]

/-- After the digits of a number come no more digits. -/
theorem head_printExponent {e : Option (Option Char × List Char)} (hr : Delimited rest)
    (c : Char) (hc : (Literal.printExponent e ++ rest).head? = some c) :
    c.isDigit = false ∧ c ≠ '.' := by
  cases e with
  | none => exact ⟨(hr c hc).1, (hr c hc).2.1⟩
  | some =>
    obtain ⟨rfl⟩ : 'e' = c := some_inj.mp hc
    decide

theorem head_printFraction {f : Option (List Char)}
    (hr : ∀ c, rest.head? = some c → c.isDigit = false ∧ c ≠ '.') (c : Char)
    (hc : (Literal.printFraction f ++ rest).head? = some c) : c.isDigit = false := by
  cases f with
  | none => exact (hr c hc).1
  | some =>
    obtain ⟨rfl⟩ : '.' = c := some_inj.mp hc
    decide

/-- A well-formed literal is read back from its text. -/
theorem literal_print {l : Literal} (hl : l.WellFormed) (hr : Delimited rest) :
    literal (l.print ++ rest) = some (l, rest) := by
  obtain ⟨negative, whole, f, e⟩ := l
  obtain ⟨⟨hn, hdi⟩, hz, hf, he⟩ := hl
  have ha := head_printExponent (e := e) hr
  obtain ⟨ht, hdr⟩ := takeWhile_digits hdi (head_printFraction (f := f) ha)
  have hs : sign ((if negative then ['-'] else []) ++ (whole ++ (Literal.printFraction f ++
      (Literal.printExponent e ++ rest)))) =
      (negative, whole ++ (Literal.printFraction f ++ (Literal.printExponent e ++ rest))) := by
    cases negative with
    | true => rfl
    | false =>
      obtain ⟨d, _, rfl⟩ := exists_cons_of_ne_nil hn
      have hd := hdi d mem_cons_self
      show sign (d :: _) = _
      unfold sign
      split
      · rename_i heq
        obtain ⟨rfl, -⟩ := List.cons.inj heq
        cases hd
      · rfl
  have hg : ¬(whole = [] ∨ whole.head? = some '0' ∧ whole ≠ ['0']) := by
    rintro (h | ⟨h0, hn0⟩)
    · exact hn h
    · exact hn0 (hz h0)
  simp only [Literal.print, append_assoc, literal, hs, ht, hdr, if_neg hg,
    fraction_print hf ha, exponent_print he hr, bind_eq_bind, bind_some]

end Json
