import DeviceClient.Text.Hex
import DeviceClient.Text.Utf8

namespace DeviceClient

/-- A 128-bit identity, given by its digits from the highest to the lowest. Every text names one; only
the canonical texts are the text of the one they name. -/
structure DeviceId where
  digits : List Nibble
  length_digits : digits.length = 32
  deriving DecidableEq

namespace DeviceId

@[ext] theorem ext {a b : DeviceId} (h : a.digits = b.digits) : a = b := by
  cases a; cases b; cases h; rfl

/-- The first 32 digits, with zeros in place of missing ones. -/
def ofDigits (ds : List Nibble) : DeviceId where
  digits := (ds ++ List.replicate 32 0).take 32
  length_digits := by simp

theorem ofDigits_digits (id : DeviceId) : ofDigits id.digits = id := by
  apply ext
  simp [ofDigits, id.length_digits]

def ofBytes (bs : List UInt8) : DeviceId := ofDigits (Hex.ofBytes bs)

def bytes (id : DeviceId) : List UInt8 := Hex.toBytes id.digits

/-- The number that the digits write. -/
def number (id : DeviceId) : Nat := id.digits.foldl (fun n d => 16 * n + d.val) 0

theorem eq_of_foldl_eq {ds es : List Nibble} (hlen : ds.length = es.length) {m n : Nat}
    (h : ds.foldl (fun n d => 16 * n + d.val) m = es.foldl (fun n d => 16 * n + d.val) n) :
    m = n ∧ ds = es := by
  induction ds generalizing es m n with
  | nil =>
    obtain rfl := List.length_eq_zero_iff.mp hlen.symm
    exact ⟨h, rfl⟩
  | cons d ds ih =>
    cases es with
    | nil => simp at hlen
    | cons e es =>
      have hlen' : ds.length = es.length := by simpa using hlen
      obtain ⟨hmn, hds⟩ := ih hlen' h
      change 16 * m + d.val = 16 * n + e.val at hmn
      have hd := d.isLt
      have he := e.isLt
      exact ⟨by omega, by rw [hds, Fin.ext (show d.val = e.val by omega)]⟩

theorem eq_of_number_eq {a b : DeviceId} (h : a.number = b.number) : a = b :=
  ext (eq_of_foldl_eq (by rw [a.length_digits, b.length_digits]) h).2

/-- Identities are ordered as their numbers, which is the order of their bytes too. -/
instance : LT DeviceId := ⟨fun a b => a.number < b.number⟩

instance (a b : DeviceId) : Decidable (a < b) :=
  inferInstanceAs (Decidable (a.number < b.number))

/-- The identity that random digits give: the digit of the version and that of the variant are
fixed, up to two random bits of the latter. -/
def ofRandom (ds : List Nibble) : DeviceId :=
  let id := ofDigits ds
  { digits := (id.digits.set 12 4).set 16 (id.digits.getD 16 0 % 4 + 8)
    length_digits := by simp [id.length_digits] }

def hyphen : UInt8 := 45

/-- The digit that a byte of a text stands for: a byte that is no digit counts as zero. -/
def digitOfByte (b : UInt8) : Nibble := (Hex.value? b.toNat).getD 0

/-- Reads the identity that a text names: hyphens are skipped and every other byte is a digit. -/
def parse (text : String) : DeviceId :=
  ofDigits (((Utf8.encode text).filter (· != hyphen)).map digitOfByte)

/-- Breaks 32 characters into groups of 8, 4, 4, 4 and 12, with hyphens between them. -/
def hyphenate (cs : List Char) : List Char :=
  cs.take 8 ++ '-' :: ((cs.drop 8).take 4 ++ '-' :: ((cs.drop 12).take 4 ++
    '-' :: ((cs.drop 16).take 4 ++ '-' :: cs.drop 20)))

def text (id : DeviceId) : String := String.ofList (hyphenate (id.digits.map Hex.digit))

/-- The places of the hyphens in a canonical text. -/
def hyphenPlaces : List Nat := [8, 13, 18, 23]

/-- Whether a text has the canonical form: 36 bytes, lower-case digits with hyphens in their
places. -/
def isCanonical (text : String) : Bool :=
  let bs := Utf8.encode text
  bs.length == 36 && bs.zipIdx.all fun (b, place) =>
    if hyphenPlaces.contains place then b == hyphen else Hex.isLowerDigit b.toNat

end DeviceId

end DeviceClient
