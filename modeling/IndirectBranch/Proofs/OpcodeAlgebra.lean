import Mathlib.Logic.Basic
import IndirectBranch.Proofs.PolicyJson

/-! The words of an opcode class. A class fixes the bits inside its mask and leaves the others free;
two classes share a word exactly if they fix no bit differently. The built-in classes pairwise do,
so a word belongs to at most one of them. -/
namespace IndirectBranch

/-! Words bit by bit. -/

def bit (w : UInt32) (i : Nat) : Bool := w.toBitVec.getLsbD i

def singleBit (i : Nat) : UInt32 := 1 <<< UInt32.ofNat i

theorem eq_iff_bit_eq {a b : UInt32} : a = b ↔ ∀ i < 32, bit a i = bit b i := by
  constructor
  · rintro rfl i _
    rfl
  · intro h
    exact UInt32.toBitVec_inj.mp (BitVec.eq_of_getLsbD_eq h)

@[simp] theorem bit_zero (i : Nat) : bit 0 i = false := by
  simp [bit]

@[simp] theorem bit_and (a b : UInt32) (i : Nat) : bit (a &&& b) i = (bit a i && bit b i) := by
  simp [bit]

@[simp] theorem bit_or (a b : UInt32) (i : Nat) : bit (a ||| b) i = (bit a i || bit b i) := by
  simp [bit]

@[simp] theorem bit_xor (a b : UInt32) (i : Nat) : bit (a ^^^ b) i = (bit a i ^^ bit b i) := by
  simp [bit]

theorem bit_not (a : UInt32) {i : Nat} (hi : i < 32) : bit (~~~a) i = !bit a i := by
  simp [bit, hi]

theorem bit_singleBit {i j : Nat} (hi : i < 32) (hj : j < 32) :
    bit (singleBit i) j = decide (i = j) := by
  have hshift : bit (singleBit i) j = (!decide (j < i) && decide (j - i = 0)) := by
    simp [bit, singleBit, hj, Nat.mod_eq_of_lt hi]
  rw [hshift, Bool.eq_iff_iff]
  simp only [Bool.and_eq_true, Bool.not_eq_true', decide_eq_true_eq, decide_eq_false_iff_not]
  omega

theorem and_singleBit_eq_zero_iff {a : UInt32} {i : Nat} (hi : i < 32) :
    a &&& singleBit i = 0 ↔ bit a i = false := by
  rw [eq_iff_bit_eq]
  constructor
  · intro h
    simpa [bit_singleBit hi hi] using h i hi
  · intro h j hj
    rw [bit_and, bit_singleBit hi hj, bit_zero]
    by_cases hij : i = j
    · subst hij
      rw [h, Bool.false_and]
    · rw [decide_eq_false hij, Bool.and_false]

namespace OpcodeClass

variable {c p q : OpcodeClass} {w : UInt32}

theorem bit_bits_eq_false (c : OpcodeClass) {i : Nat} (hmask : bit c.mask i = false) :
    bit c.bits i = false := by
  rw [← c.bits_inside, bit_and, hmask, Bool.and_false]

/-- A word belongs to a class if it agrees with the class inside the mask. -/
theorem contains_iff_bits :
    c.contains w = true ↔ ∀ i < 32, bit c.mask i = true → bit w i = bit c.bits i := by
  rw [contains, beq_iff_eq, eq_iff_bit_eq]
  refine forall₂_congr fun i _ => ?_
  rw [bit_and]
  cases hmask : bit c.mask i with
  | true => simp
  | false => simp [bit_bits_eq_false c hmask]

theorem contains_bits (c : OpcodeClass) : c.contains c.bits = true :=
  contains_iff_bits.mpr fun _ _ _ => rfl

theorem make_eq_ok_iff {name : String} {mask bits : UInt32} :
    make name mask bits = .ok c ↔ c.name = name ∧ c.mask = mask ∧ c.bits = bits := by
  constructor
  · intro h
    unfold make at h
    split at h
    · cases h
    split at h
    · obtain rfl := Except.ok.inj h
      exact ⟨rfl, rfl, rfl⟩
    · cases h
  · rintro ⟨rfl, rfl, rfl⟩
    rw [make, dif_neg c.name_ne, dif_pos c.bits_inside]

/-- Bits outside the mask are in no masked word, so only a class without them has words at all. -/
theorem exists_make_iff {name : String} (hname : name ≠ "") {mask bits : UInt32} :
    (∃ c, make name mask bits = .ok c) ↔ ∃ w, w &&& mask = bits := by
  constructor
  · rintro ⟨c, hc⟩
    obtain ⟨-, rfl, rfl⟩ := make_eq_ok_iff.mp hc
    exact ⟨c.bits, c.bits_inside⟩
  · rintro ⟨w, rfl⟩
    have hinside : w &&& mask &&& mask = w &&& mask := by rw [UInt32.and_assoc, UInt32.and_self]
    exact ⟨⟨name, mask, w &&& mask, hname, hinside⟩, make_eq_ok_iff.mpr ⟨rfl, rfl, rfl⟩⟩

/-- The words of a class are its bits with anything outside the mask. -/
theorem contains_iff_exists_free :
    c.contains w = true ↔ ∃ x, w = c.bits ||| (x &&& ~~~c.mask) := by
  rw [contains_iff_bits]
  constructor
  · intro h
    refine ⟨w, eq_iff_bit_eq.mpr fun i hi => ?_⟩
    rw [bit_or, bit_and, bit_not _ hi]
    cases hmask : bit c.mask i with
    | true => simp [h i hi hmask]
    | false => simp [bit_bits_eq_false c hmask]
  · rintro ⟨x, rfl⟩ i hi hmask
    rw [bit_or, bit_and, bit_not _ hi, hmask]
    simp

/-- Of a word of a class, exactly the bits outside the mask may be flipped. -/
theorem contains_flip_iff (hw : c.contains w = true) {i : Nat} (hi : i < 32) :
    c.contains (w ^^^ singleBit i) = true ↔ c.mask &&& singleBit i = 0 := by
  rw [contains_iff_bits] at hw
  rw [contains_iff_bits, and_singleBit_eq_zero_iff hi]
  constructor
  · intro hflipped
    cases hmask : bit c.mask i with
    | false => rfl
    | true =>
      have hbit := hflipped i hi hmask
      rw [bit_xor, bit_singleBit hi hi, hw i hi hmask] at hbit
      simp at hbit
  · intro hfree j hj hmask
    have hij : i ≠ j := by
      rintro rfl
      rw [hfree] at hmask
      cases hmask
    rw [bit_xor, bit_singleBit hi hj, decide_eq_false hij, Bool.xor_false, hw j hj hmask]

/-- Two classes ask for different values of the same bit. -/
def Conflicts (p q : OpcodeClass) : Prop := (p.bits ^^^ q.bits) &&& p.mask &&& q.mask ≠ 0

instance (p q : OpcodeClass) : Decidable (Conflicts p q) :=
  inferInstanceAs (Decidable ((p.bits ^^^ q.bits) &&& p.mask &&& q.mask ≠ 0))

theorem not_conflicts_iff :
    ¬ Conflicts p q ↔
      ∀ i < 32, bit p.mask i = true → bit q.mask i = true → bit p.bits i = bit q.bits i := by
  rw [Conflicts, not_not, eq_iff_bit_eq]
  refine forall₂_congr fun i _ => ?_
  simp only [bit_and, bit_xor, bit_zero]
  cases bit p.mask i <;> cases bit q.mask i <;> simp

/-- The bits of both classes together make a word of both, unless the classes conflict. -/
theorem exists_common_iff :
    (∃ w, p.contains w = true ∧ q.contains w = true) ↔ ¬ Conflicts p q := by
  rw [not_conflicts_iff]
  constructor
  · rintro ⟨w, hp, hq⟩ i hi hpmask hqmask
    rw [← contains_iff_bits.mp hp i hi hpmask, contains_iff_bits.mp hq i hi hqmask]
  · intro hagree
    refine ⟨p.bits ||| q.bits, contains_iff_bits.mpr ?_, contains_iff_bits.mpr ?_⟩
    · intro i hi hpmask
      rw [bit_or]
      cases hqmask : bit q.mask i with
      | true => rw [hagree i hi hpmask hqmask, Bool.or_self]
      | false => rw [bit_bits_eq_false q hqmask, Bool.or_false]
    · intro i hi hqmask
      rw [bit_or]
      cases hpmask : bit p.mask i with
      | true => rw [hagree i hi hpmask hqmask, Bool.or_self]
      | false => rw [bit_bits_eq_false p hpmask, Bool.false_or]

end OpcodeClass

/-- Of classes that pairwise conflict, a word belongs to at most one. -/
theorem OpcodeClasses.length_containing_le_one {classes : OpcodeClasses}
    (h : classes.Pairwise OpcodeClass.Conflicts) (w : UInt32) :
    (containing classes w).length ≤ 1 := by
  induction classes with
  | nil => exact Nat.zero_le 1
  | cons c cs ih =>
    obtain ⟨hc, hcs⟩ := List.pairwise_cons.mp h
    by_cases hw : c.contains w = true
    · have hrest : containing cs w = [] := by
        refine List.filter_eq_nil_iff.mpr fun d hd hdw => ?_
        exact OpcodeClass.exists_common_iff.mp ⟨w, hw, hdw⟩ (hc d hd)
      simp [containing, hw, show cs.filter (·.contains w) = [] from hrest]
    · simpa [containing, hw] using ih hcs

theorem Policy.pairwise_conflicts_classes {p : Policy} (h : p.extraClasses = []) :
    p.classes.Pairwise OpcodeClass.Conflicts := by
  rw [classes, h]
  cases p.pointerAuth <;> decide

/-- A class can be made exactly if some word belongs to it, and then its words are its bits with
anything outside the mask; so flipping a bit of a word keeps it in the class exactly if the bit lies
outside the mask. Two classes share a word exactly if their bits agree where both masks have bits.
The built-in classes pairwise do not, so without extra classes a word is of one class at most. Every
class that a policy file leads to has a word. -/
theorem opcodeClass_algebra :
    (∀ (name : String) (mask bits : UInt32), name ≠ "" →
      ((∃ c, OpcodeClass.make name mask bits = .ok c) ↔ ∃ w, w &&& mask = bits)) ∧
    (∀ (name : String) (mask bits : UInt32) (c : OpcodeClass),
      OpcodeClass.make name mask bits = .ok c →
      (∀ w, c.contains w = true ↔ w &&& mask = bits) ∧
      (∀ w, c.contains w = true ↔ ∃ x, w = bits ||| (x &&& ~~~mask)) ∧
      ∀ w, c.contains w = true → ∀ i < 32,
        (c.contains (w ^^^ singleBit i) = true ↔ mask &&& singleBit i = 0)) ∧
    (∀ p q : OpcodeClass, (∃ w, p.contains w = true ∧ q.contains w = true) ↔
      (p.bits ^^^ q.bits) &&& p.mask &&& q.mask = 0) ∧
    (OpcodeClasses.indirectBranches ++ OpcodeClasses.pointerAuth).Pairwise
      (fun p q => (p.bits ^^^ q.bits) &&& p.mask &&& q.mask ≠ 0) ∧
    (∀ (p : Policy) (w : UInt32), p.extraClasses = [] → (p.classes.namesFor w).length ≤ 1) ∧
    ∀ (text : String) (p : Policy), Policy.ofJson text = .ok p → ∀ c ∈ p.classes,
      OpcodeClass.make c.name c.mask c.bits = .ok c ∧ ∃ w, c.contains w = true := by
  refine ⟨fun name mask bits hname => OpcodeClass.exists_make_iff hname, ?_, ?_, by decide, ?_, ?_⟩
  · intro name mask bits c hc
    obtain ⟨-, rfl, rfl⟩ := OpcodeClass.make_eq_ok_iff.mp hc
    exact ⟨fun w => beq_iff_eq, fun w => OpcodeClass.contains_iff_exists_free,
      fun w hw i hi => OpcodeClass.contains_flip_iff hw hi⟩
  · intro p q
    rw [OpcodeClass.exists_common_iff, OpcodeClass.Conflicts, not_not]
  · intro p w hextra
    rw [OpcodeClasses.namesFor, List.length_map]
    exact OpcodeClasses.length_containing_le_one (Policy.pairwise_conflicts_classes hextra) w
  · intro text p _ c _
    exact ⟨OpcodeClass.make_eq_ok_iff.mpr ⟨rfl, rfl, rfl⟩, c.bits, c.contains_bits⟩

/-- Returns, with the register in bits 5 to 9: bit 5 of `ret x30` may be flipped, bit 0 may not. The
class shares no word with `br`, and a bit outside the mask leaves it without words. -/
theorem opcodeClass_algebra_ret :
    let ret : OpcodeClass := ⟨"ret", 0xFFFFFC1F, 0xD65F0000, by decide, by decide⟩
    let policy : Policy := { Policy.standard with pointerAuth := true, extraClasses := [ret] }
    ret.contains (0xD65F03C0 ^^^ singleBit 5) = true ∧
      ¬ ret.contains (0xD65F03C0 ^^^ singleBit 0) = true ∧
      (¬ ∃ w, ret.contains w = true ∧ OpcodeClass.br.contains w = true) ∧
      (¬ ∃ c, OpcodeClass.make "ret" 0xFFFFFC1F 0xD65F0020 = .ok c) ∧
      (Policy.standard.classes.namesFor 0xD61F0200).length ≤ 1 ∧
      ∀ c ∈ policy.classes, ∃ w, c.contains w = true := by
  intro ret policy
  obtain ⟨hmake, hwords, hcommon, -, hsingle, hpolicy⟩ := opcodeClass_algebra
  obtain ⟨-, -, hflip⟩ := hwords "ret" 0xFFFFFC1F 0xD65F0000 ret rfl
  have hret : ret.contains 0xD65F03C0 = true := by decide
  have hnone : ¬ ∃ w : UInt32, w &&& 0xFFFFFC1F = 0xD65F0020 := by
    rintro ⟨w, hw⟩
    have hbit := eq_iff_bit_eq.mp hw 5 (by decide)
    rw [bit_and, show bit 0xFFFFFC1F 5 = false by decide, Bool.and_false] at hbit
    exact absurd hbit (by decide)
  refine ⟨(hflip _ hret 5 (by decide)).mpr (by decide),
    (hflip _ hret 0 (by decide)).not.mpr (by decide), (hcommon ret .br).not.mpr (by decide),
    (hmake "ret" _ _ (by decide)).not.mpr hnone, hsingle _ _ rfl, fun c hc => ?_⟩
  exact (hpolicy _ policy (Policy.ofJson_compact policy) c hc).2

end IndirectBranch
