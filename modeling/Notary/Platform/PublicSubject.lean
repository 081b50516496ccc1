import Notary.Lib.Hex
import Notary.Lib.LengthPrefix
import Notary.Platform.Admissions

/-! The credit subject of an anonymous caller: a keyed hash of its address and of the month in
which it asks. -/

namespace Notary.Platform
open Relational LengthPrefix List
open Utf8 (Bytes bytes)

inductive IpAddr
  | v4 (a b c d : UInt8)
  | v6 (segments : Fin 8 → UInt16)

/-- `Ipv6Addr::to_ipv4_mapped`. -/
def toIpv4Mapped (segments : Fin 8 → UInt16) : Option IpAddr :=
  if segments 0 = 0 ∧ segments 1 = 0 ∧ segments 2 = 0 ∧ segments 3 = 0 ∧ segments 4 = 0 ∧
      segments 5 = 0xffff then
    some (.v4 (segments 6 >>> 8).toUInt8 (segments 6).toUInt8 (segments 7 >>> 8).toUInt8
      (segments 7).toUInt8)
  else none

def canonicalIp : IpAddr → IpAddr
  | .v6 segments => (toIpv4Mapped segments).getD (.v6 segments)
  | address => address

/-- What the subject of an anonymous caller rests on: the keyed hash under the configured key, the
version of that key, and how the standard library prints an IPv6 address. -/
structure SubjectKey where
  hmac : Bytes → Bytes
  keyVersion : ℕ
  displayIpv6 : (Fin 8 → UInt16) → String

namespace SubjectKey

/-- IPv6 callers share their /64. -/
def normalizedClientAddress (key : SubjectKey) (ip : IpAddr) : String :=
  match canonicalIp ip with
  | .v4 a b c d =>
    "v4:" ++ toString a ++ "." ++ toString b ++ "." ++ toString c ++ "." ++ toString d
  | .v6 segments =>
    "v6:" ++ key.displayIpv6 (fun i => if i < 4 then segments i else 0) ++ "/64"

def publicSubjectPurpose : String := "hosted-notarization-public-subject"

/-- The hashed values, each behind its length. -/
def subjectInput (key : SubjectKey) (normalized : String) (periodStart : ℤ) : Bytes :=
  [publicSubjectPurpose, toString key.keyVersion, toString periodStart, normalized].flatMap
    fun value => frame (bytes value)

def addressSubject (key : SubjectKey) (normalized : String) (periodStart : ℤ) : String :=
  "public:v" ++ toString key.keyVersion ++ ":" ++
    Hex.encode (key.hmac (key.subjectInput normalized periodStart))

def publicCreditSubject (key : SubjectKey) (ip : IpAddr) (periodStart : ℤ) : String :=
  key.addressSubject (key.normalizedClientAddress ip) periodStart

theorem length_bytes_toString_lt (h : (bigint? n).isSome) :
    (bytes (toString n)).length < 2 ^ 64 := by
  have hd {k : ℕ} (hk : k < 10 ^ 20) : (Nat.toDigits 10 k).length ≤ 20 :=
    (Nat.length_toDigits_le_iff (by decide) (by decide)).mpr hk
  have hs : (toString n).length ≤ 21 := by
    change n.repr.length ≤ 21
    have hr : -9223372036854775808 ≤ n ∧ n ≤ 9223372036854775807 := by
      by_contra ho
      simp [bigint?, ho] at h
    rw [Int.repr_eq_if]
    split_ifs
    · have hl := hd (k := n.toNat) (by omega)
      rw [Nat.repr_eq_ofList_toDigits, String.length_ofList]
      omega
    · have hl := hd (k := (-n).toNat) (by omega)
      have hm : "-".length = 1 := rfl
      simp only [Nat.repr_eq_ofList_toDigits, String.length_append, String.length_ofList]
      omega
  have hb : ∀ cs : List Char, (Utf8.encode cs).length ≤ 4 * cs.length := by
    intro cs
    induction cs with
    | nil => rfl
    | cons c _ ih =>
      have hc := Utf8.length_encodeChar_le c
      simp only [Utf8.encode, flatMap_cons, length_append, length_cons] at ih ⊢
      omega
  have hle := hb (toString n).toList
  rw [← Utf8.bytes_eq, String.length_toList] at hle
  omega

/-- The subject tells the address and the month. -/
theorem addressSubject_inj {key : SubjectKey} (hh : Function.Injective key.hmac)
    {a b : String} {m n : ℤ} (hm : (bigint? m).isSome) (hn : (bigint? n).isSome)
    (h : key.addressSubject a m = key.addressSubject b n) : a = b ∧ m = n := by
  have hi : key.subjectInput a m = key.subjectInput b n :=
    hh (Hex.encode_injective (String.append_right_inj _ |>.mp h))
  simp only [subjectInput, flatMap_cons, flatMap_nil, append_nil] at hi
  obtain ⟨-, hi⟩ := append_inj hi rfl
  obtain ⟨-, hi⟩ := append_inj hi rfl
  obtain ⟨hp, ha⟩ := frame_append_inj (length_bytes_toString_lt hm) (length_bytes_toString_lt hn) hi
  exact ⟨Utf8.bytes_injective (frame_inj ha), Int.repr_injective (Utf8.bytes_injective hp)⟩

end SubjectKey

end Notary.Platform
