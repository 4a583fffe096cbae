import IndirectBranch.Bytes

/-! A binary as the auditor sees it: segments of memory, named sections and symbols. -/
namespace IndirectBranch

def lastAddress : Nat := UInt64.size - 1

/-- Sums of addresses and sizes stop at the last address. -/
def saturate (n : Nat) : Nat := min n lastAddress

theorem toNat_le_lastAddress (a : UInt64) : a.toNat ≤ lastAddress :=
  Nat.le_sub_one_of_lt a.toNat_lt

theorem toNat_ofNat_of_le {n : Nat} (h : n ≤ lastAddress) : (UInt64.ofNat n).toNat = n :=
  UInt64.toNat_ofNat_of_lt' (Nat.lt_of_le_sub_one (by decide) h)

/-- A sum is an address exactly if it does not pass the last one. -/
theorem ite_lastAddress_eq_some_iff {n : Nat} {a : UInt64} :
    (if n ≤ lastAddress then some (UInt64.ofNat n) else none) = some a ↔ a.toNat = n := by
  by_cases hn : n ≤ lastAddress
  · rw [if_pos hn, Option.some.injEq, ← UInt64.toNat_inj, toNat_ofNat_of_le hn]
    exact eq_comm
  · have ha := toNat_le_lastAddress a
    rw [if_neg hn]
    simp only [reduceCtorEq, false_iff]
    omega

structure Permissions where
  read : Bool
  write : Bool
  execute : Bool
  deriving DecidableEq, Repr, Inhabited

namespace Permissions

def none : Permissions := ⟨false, false, false⟩

def readExecute : Permissions := ⟨true, false, true⟩

/-- The usual triplet, with `-` for a missing permission. -/
def triplet (p : Permissions) : String :=
  String.ofList [if p.read then 'r' else '-', if p.write then 'w' else '-',
    if p.execute then 'x' else '-']

end Permissions

/-- One loadable region: `bytes[i]` lies at address `base + i`. The region may extend past its
bytes in memory. -/
structure Segment where
  base : UInt64
  bytes : Bytes
  permissions : Permissions
  memorySize : Nat
  deriving DecidableEq, Repr

namespace Segment

def new (base : UInt64) (bytes : Bytes) (permissions : Permissions) : Segment :=
  ⟨base, bytes, permissions, bytes.length⟩

def executable (base : UInt64) (bytes : Bytes) : Segment := new base bytes .readExecute

/-- The memory size never falls below the number of bytes. -/
def withMemorySize (s : Segment) (size : Nat) : Segment :=
  { s with memorySize := max size s.bytes.length }

/-- First address past the bytes. -/
def endAddress (s : Segment) : Nat := saturate (s.base.toNat + s.bytes.length)

def contains (s : Segment) (address : UInt64) : Bool :=
  s.base.toNat ≤ address.toNat && address.toNat < s.endAddress

/-- Whether the address lies in the whole extent in memory. -/
def maps (s : Segment) (address : UInt64) : Bool :=
  s.base.toNat ≤ address.toNat && address.toNat < saturate (s.base.toNat + s.memorySize)

end Segment

structure Section where
  name : String
  start : UInt64
  size : UInt64
  deriving DecidableEq, Repr

structure Symbol where
  name : String
  address : UInt64
  deriving DecidableEq, Repr

structure Image where
  segments : List Segment
  sections : List Section
  symbols : List Symbol
  deriving DecidableEq, Repr

namespace Image

def executableSegments (image : Image) : List Segment :=
  image.segments.filter (·.permissions.execute)

/-- Names of the named sections that start inside the extent of `s`. -/
def sectionsIn (image : Image) (s : Segment) : List String :=
  (image.sections.filter fun t => t.name != "" && s.maps t.start).map (·.name)

end Image
end IndirectBranch
