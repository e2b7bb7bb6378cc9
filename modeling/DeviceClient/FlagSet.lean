import DeviceClient.Power

namespace DeviceClient

/-- A family of flags, each with a name and a place of its own. -/
class FlagFamily (ι : Type) where
  /-- The number of bits in a set. -/
  width : Nat
  /-- The flags in the order of their declaration. -/
  all : List ι
  mem_all : ∀ f, f ∈ all
  position : ι → Nat
  position_lt : ∀ f, position f < width
  name : ι → String

namespace FlagFamily

variable {ι : Type} [FlagFamily ι]

def bit (f : ι) : BitVec (width ι) := .twoPow (width ι) (position f)

def ofName? (name : String) : Option ι := all.find? fun f => FlagFamily.name f == name

variable (ι)

/-- The bits of all flags of the family. -/
def known : BitVec (width ι) := (all.map (bit : ι → BitVec (width ι))).foldl (· ||| ·) 0

end FlagFamily

/-- A set of flags as it is kept: its bits, some of which may be those of no flag. -/
@[ext] structure FlagSet (ι : Type) [FlagFamily ι] where
  bits : BitVec (FlagFamily.width ι)

namespace FlagSet

variable {ι : Type} [FlagFamily ι]

instance : DecidableEq (FlagSet ι) := fun s t => decidable_of_iff (s.bits = t.bits) FlagSet.ext_iff.symm

/-- Only the bits of flags are kept. -/
def truncate (bits : BitVec (FlagFamily.width ι)) : FlagSet ι := ⟨bits &&& FlagFamily.known ι⟩

/-- Whether all bits are those of flags. -/
def Named (s : FlagSet ι) : Prop := truncate s.bits = s

instance (s : FlagSet ι) : Decidable s.Named := inferInstanceAs (Decidable (_ = _))

/-- Bits of flags only, as a set. -/
def ofBits? (bits : BitVec (FlagFamily.width ι)) : Option (FlagSet ι) :=
  if (⟨bits⟩ : FlagSet ι).Named then some ⟨bits⟩ else none

def empty : FlagSet ι := ⟨0⟩

def singleton (f : ι) : FlagSet ι := ⟨FlagFamily.bit f⟩

def union (s t : FlagSet ι) : FlagSet ι := ⟨s.bits ||| t.bits⟩

def difference (s t : FlagSet ι) : FlagSet ι := ⟨s.bits &&& ~~~t.bits⟩

def ofList (fs : List ι) : FlagSet ι := fs.foldl (fun s f => s.union (singleton f)) empty

/-- Whether every bit of `t` is in `s`. -/
def includes (s t : FlagSet ι) : Bool := s.bits &&& t.bits == t.bits

def intersects (s t : FlagSet ι) : Bool := s.bits &&& t.bits != 0

def contains (s : FlagSet ι) (f : ι) : Bool := s.includes (singleton f)

def isEmpty (s : FlagSet ι) : Bool := s.bits == 0

def isAll (s : FlagSet ι) : Bool := FlagFamily.known ι ||| s.bits == s.bits

/-- The flags of the set in the order of their declaration. -/
def toList (s : FlagSet ι) : List ι := FlagFamily.all.filter s.contains

end FlagSet

end DeviceClient
