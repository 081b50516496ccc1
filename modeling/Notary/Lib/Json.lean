import Notary.Lib.Utf8

/-! JSON documents: values, the parser with its nesting limit, and the printer. -/

namespace Json

/-- A number as it is spelled. -/
structure Literal where
  negative : Bool
  whole : List Char
  fraction : Option (List Char)
  exponent : Option (Option Char × List Char)
  deriving DecidableEq

namespace Literal

/-- Some digits, and all of them decimal. -/
def Digits (ds : List Char) : Prop := ds ≠ [] ∧ ∀ c ∈ ds, c.isDigit

structure WellFormed (l : Literal) : Prop where
  whole : Digits l.whole
  noLeadingZero : l.whole.head? = some '0' → l.whole = ['0']
  fraction : ∀ ds, l.fraction = some ds → Digits ds
  exponent : ∀ sign ds, l.exponent = some (sign, ds) →
    Digits ds ∧ ∀ c, sign = some c → c = '+' ∨ c = '-'

/-- The literal has a fraction or an exponent, so it is never read as an integer. -/
def IsFloat (l : Literal) : Prop := l.fraction.isSome ∨ l.exponent.isSome

end Literal

/-- A floating-point format with its decimal input and output. What is written can be read,
though the reader need not return the same number. -/
class Floats (F : Type) where
  read : Literal → Option F
  write : F → Literal
  wellFormed : ∀ x, (write x).WellFormed
  isFloat : ∀ x, (write x).IsFloat
  readable : ∀ x, (read (write x)).isSome

/-- An unsigned integer of 64 bits, a negative integer `-(k + 1)` of 64 bits, or a float. -/
inductive Number (F : Type)
  | unsigned (n : UInt64)
  | negative (k : Fin (2 ^ 63))
  | float (x : F)
  deriving DecidableEq

inductive Value (F : Type)
  | null
  | bool (b : Bool)
  | number (n : Number F)
  | string (s : String)
  | array (elements : List (Value F))
  | object (members : List (String × Value F))

variable {F : Type}

namespace Value

mutual

def depth : Value F → ℕ
  | .array vs => depths vs + 1
  | .object ms => memberDepths ms + 1
  | _ => 0

def depths : List (Value F) → ℕ
  | [] => 0
  | v :: vs => max v.depth (depths vs)

def memberDepths : List (String × Value F) → ℕ
  | [] => 0
  | (_, v) :: ms => max v.depth (memberDepths ms)

end

theorem depths_le {vs : List (Value F)} {n : ℕ} (h : ∀ v ∈ vs, v.depth ≤ n) : depths vs ≤ n := by
  induction vs with
  | nil => exact Nat.zero_le n
  | cons v _ ih =>
    rw [depths]
    exact max_le (h v List.mem_cons_self) (ih fun w hw => h w (List.mem_cons_of_mem v hw))

/-- Insertion into a map that is sorted by key; the last value of a key stays. -/
def insertMember (k : String) (v : Value F) : List (String × Value F) → List (String × Value F)
  | [] => [(k, v)]
  | (k', v') :: ms =>
    if k = k' then (k, v) :: ms
    else if k < k' then (k, v) :: (k', v') :: ms
    else (k', v') :: insertMember k v ms

mutual

/-- The value with its objects as maps: sorted by key and without duplicates. -/
def normalize : Value F → Value F
  | .array vs => .array (normalizeAll vs)
  | .object ms => .object (normalizeMembers ms)
  | v => v

def normalizeAll : List (Value F) → List (Value F)
  | [] => []
  | v :: vs => v.normalize :: normalizeAll vs

/-- The members from last to first, so that an earlier duplicate does not replace a later. -/
def normalizeMembers : List (String × Value F) → List (String × Value F)
  | [] => []
  | (k, v) :: ms =>
    let rest := normalizeMembers ms
    if rest.any (·.1 = k) then rest else insertMember k v.normalize rest

end

def get (v : Value F) (key : String) : Option (Value F) :=
  match v with
  | .object ms => (ms.find? (·.1 = key)).map (·.2)
  | _ => none

def asStr : Value F → Option String
  | .string s => some s
  | _ => none

def asArray : Value F → Option (List (Value F))
  | .array vs => some vs
  | _ => none

def asU64 : Value F → Option UInt64
  | .number (.unsigned n) => some n
  | _ => none

theorem get_cons (k key : String) (v : Value F) (ms : List (String × Value F)) :
    (object ((k, v) :: ms)).get key = if k = key then some v else (object ms).get key := by
  simp only [get, List.find?_cons]
  split_ifs with h
  · rw [decide_eq_true h]
    rfl
  · rw [decide_eq_false h]

theorem get_insertMember (k : String) (v : Value F) (ms : List (String × Value F)) :
    (object (insertMember k v ms)).get k = some v := by
  induction ms with
  | nil => rw [insertMember, get_cons, if_pos rfl]
  | cons m _ ih =>
    obtain ⟨_, _⟩ := m
    rw [insertMember]
    split_ifs with he hl
    · rw [get_cons, if_pos rfl]
    · rw [get_cons, if_pos rfl]
    · rw [get_cons, if_neg (Ne.symm he), ih]

theorem get_insertMember_of_ne {k key : String} (h : key ≠ k) (v : Value F)
    (ms : List (String × Value F)) :
    (object (insertMember k v ms)).get key = (object ms).get key := by
  induction ms with
  | nil => rw [insertMember, get_cons, if_neg (Ne.symm h)]
  | cons m _ ih =>
    obtain ⟨_, _⟩ := m
    rw [insertMember]
    split_ifs with he hl
    · subst he
      rw [get_cons, get_cons, if_neg (Ne.symm h), if_neg (Ne.symm h)]
    · rw [get_cons, if_neg (Ne.symm h)]
    · rw [get_cons, get_cons, ih]

end Value

/-- A list of values is decoded from the list of their encodings. -/
theorem mapM_decode {α : Type} {encode : α → Value F} {decode : Value F → Option α}
    (h : ∀ a, decode (encode a) = some a) (as : List α) :
    (as.map encode).mapM decode = some as := by
  induction as with
  | nil => rfl
  | cons _ _ ih => simp [List.mapM_cons, h, ih]

/-! The parser. -/

def isSpace (c : Char) : Bool := c = ' ' || c = '\n' || c = '\t' || c = '\r'

def skip (t : List Char) : List Char := t.dropWhile isSpace

def hexValue (c : Char) : Option ℕ :=
  if c.isDigit then some (c.toNat - 48)
  else if 'a' ≤ c ∧ c ≤ 'f' then some (c.toNat - 87)
  else if 'A' ≤ c ∧ c ≤ 'F' then some (c.toNat - 55)
  else none

def hex4 (a b c d : Char) : Option ℕ := do
  let a ← hexValue a
  let b ← hexValue b
  let c ← hexValue c
  let d ← hexValue d
  some (((a * 16 + b) * 16 + c) * 16 + d)

/-- The character of a one-letter escape. -/
def unescape : Char → Option Char
  | '"' => some '"'
  | '\\' => some '\\'
  | '/' => some '/'
  | 'b' => some '\x08'
  | 'f' => some '\x0c'
  | 'n' => some '\n'
  | 'r' => some '\r'
  | 't' => some '\t'
  | _ => none

def push (c : Char) (r : Option (List Char × List Char)) : Option (List Char × List Char) :=
  r.map fun (s, rest) => (c :: s, rest)

/-- The rest of a string after its opening quote. -/
def stringBody : List Char → Option (List Char × List Char)
  | [] => none
  | '"' :: rest => some ([], rest)
  | '\\' :: 'u' :: a :: b :: c :: d :: rest =>
    match hex4 a b c d with
    | none => none
    | some n =>
      if 0xDC00 ≤ n ∧ n ≤ 0xDFFF then none
      else if 0xD800 ≤ n ∧ n ≤ 0xDBFF then
        -- A leading surrogate must be followed by the escape of a trailing one.
        match rest with
        | '\\' :: 'u' :: e :: f :: g :: h :: rest =>
          match hex4 e f g h with
          | none => none
          | some m =>
            if 0xDC00 ≤ m ∧ m ≤ 0xDFFF then
              push (Char.ofNat (0x10000 + (n - 0xD800) * 0x400 + (m - 0xDC00))) (stringBody rest)
            else none
        | _ => none
      else push (Char.ofNat n) (stringBody rest)
  | '\\' :: e :: rest =>
    match unescape e with
    | none => none
    | some c => push c (stringBody rest)
  | c :: rest => if c.toNat < 0x20 then none else push c (stringBody rest)

def fraction : List Char → Option (Option (List Char) × List Char)
  | '.' :: t =>
    let ds := t.takeWhile Char.isDigit
    if ds = [] then none else some (some ds, t.dropWhile Char.isDigit)
  | t => some (none, t)

def exponentSign : List Char → Option Char × List Char
  | '+' :: t => (some '+', t)
  | '-' :: t => (some '-', t)
  | t => (none, t)

def exponent : List Char → Option (Option (Option Char × List Char) × List Char)
  | c :: t =>
    if c = 'e' ∨ c = 'E' then
      let (sign, t) := exponentSign t
      let ds := t.takeWhile Char.isDigit
      if ds = [] then none else some (some (sign, ds), t.dropWhile Char.isDigit)
    else some (none, c :: t)
  | [] => some (none, [])

def sign : List Char → Bool × List Char
  | '-' :: t => (true, t)
  | t => (false, t)

def literal (t : List Char) : Option (Literal × List Char) := do
  let (negative, t) := sign t
  let whole := t.takeWhile Char.isDigit
  if whole = [] ∨ whole.head? = some '0' ∧ whole ≠ ['0'] then none
  else do
    let (f, t) ← fraction (t.dropWhile Char.isDigit)
    let (e, t) ← exponent t
    some (⟨negative, whole, f, e⟩, t)

variable [Floats F]

/-- Integers that fit stay integers; `-0` and everything else become floats. -/
def Number.ofLiteral (l : Literal) : Option (Number F) :=
  let n := Nat.ofDigitChars 10 l.whole 0
  if l.fraction.isNone ∧ l.exponent.isNone ∧ l.negative = false ∧ n < 2 ^ 64 then
    some (.unsigned (UInt64.ofNat n))
  else if h : l.fraction.isNone ∧ l.exponent.isNone ∧ l.negative = true ∧ 0 < n ∧ n ≤ 2 ^ 63 then
    some (.negative ⟨n - 1, by omega⟩)
  else (Floats.read l).map .float

mutual

/-- A value and the text after it. The depth counts the containers that may still be entered,
plus one. -/
def value : (fuel depth : ℕ) → List Char → Option (Value F × List Char)
  | 0, _, _ => none
  | fuel + 1, depth, t =>
    match skip t with
    | 'n' :: 'u' :: 'l' :: 'l' :: rest => some (.null, rest)
    | 't' :: 'r' :: 'u' :: 'e' :: rest => some (.bool true, rest)
    | 'f' :: 'a' :: 'l' :: 's' :: 'e' :: rest => some (.bool false, rest)
    | '"' :: rest => (stringBody rest).map fun (s, rest) => (.string (String.ofList s), rest)
    | '[' :: rest =>
      if depth ≤ 1 then none
      else if (skip rest).head? = some ']' then some (.array [], (skip rest).tail)
      else (elements fuel (depth - 1) rest).map fun (vs, rest) => (.array vs, rest)
    | '\x7b' :: rest =>
      if depth ≤ 1 then none
      else if (skip rest).head? = some '\x7d' then some (.object [], (skip rest).tail)
      else (members fuel (depth - 1) rest).map fun (ms, rest) => (.object ms, rest)
    | t => do
      let (l, rest) ← literal t
      let n ← Number.ofLiteral l
      some (.number n, rest)

/-- The elements of an array up to its closing bracket. -/
def elements : (fuel depth : ℕ) → List Char → Option (List (Value F) × List Char)
  | 0, _, _ => none
  | fuel + 1, depth, t => do
    let (v, t) ← value fuel depth t
    match skip t with
    | ',' :: rest =>
      let (vs, rest) ← elements fuel depth rest
      some (v :: vs, rest)
    | ']' :: rest => some ([v], rest)
    | _ => none

/-- The members of an object up to its closing brace. -/
def members : (fuel depth : ℕ) → List Char → Option (List (String × Value F) × List Char)
  | 0, _, _ => none
  | fuel + 1, depth, t =>
    match skip t with
    | '"' :: t => do
      let (k, t) ← stringBody t
      match skip t with
      | ':' :: t =>
        let (v, t) ← value fuel depth t
        match skip t with
        | ',' :: rest =>
          let (ms, rest) ← members fuel depth rest
          some ((String.ofList k, v) :: ms, rest)
        | '\x7d' :: rest => some ([(String.ofList k, v)], rest)
        | _ => none
      | _ => none
    | _ => none

end

/-- At most this many containers nest, counting one more. -/
def nestingLimit : ℕ := 128

def document (t : List Char) : Option (Value F) := do
  let (v, rest) ← value (t.length + 1) nestingLimit t
  if skip rest = [] then some v else none

/-- `serde_json::from_slice` for a value. -/
def fromSlice (b : Utf8.Bytes) : Option (Value F) :=
  ((Utf8.decode b).bind document).map Value.normalize

/-! Derived deserializers. -/

/-- The fields of a struct in their order: from an array with one element for each field, or
from an object that has each field once. Other members are ignored unless they are denied. -/
def structFields (names : List String) (denyUnknown : Bool) : Value F → Option (List (Value F))
  | .array vs => if vs.length = names.length then some vs else none
  | .object ms =>
    if ((ms.filter (·.1 ∈ names)).map (·.1)).Nodup ∧
        (denyUnknown = true → ∀ m ∈ ms, m.1 ∈ names) then
      names.mapM fun name => (ms.find? (·.1 = name)).map (·.2)
    else none
  | _ => none

end Json
