import Mathlib.Data.List.Induction
import Mathlib.Data.List.Sort
import Mathlib.Data.String.Basic
import IndirectBranch.Disassembly.Branch
import IndirectBranch.Proofs.Utf8

/-! Runs of registrations. A registration changes what is kept under its own name and nothing else.
So after any number of them each name stands for the factory that was registered under it last, and
the order of registrations under different names makes no difference. -/
namespace IndirectBranch.DisassemblerRegistry

def factory? (r : DisassemblerRegistry) (name : String) : Option DisassemblerFactory :=
  r.factories[name]?

/-! What a registry answers follows from what it keeps. -/

section Answers

variable (r : DisassemblerRegistry) (name : String)

theorem contains_eq_isSome : r.contains name = (r.factory? name).isSome :=
  Std.TreeMap.contains_eq_isSome_getElem?

theorem mem_names_iff : name ∈ r.names ↔ (r.factory? name).isSome = true :=
  Std.TreeMap.mem_keys.trans Std.TreeMap.mem_iff_isSome_getElem?

theorem create_eq :
    r.create name = (r.factory? name).getD (.error (.unknownName name r.names)) := by
  rw [create, Std.TreeMap.get?_eq_getElem?, factory?]
  cases r.factories[name]? <;> rfl

theorem names_pairwise : r.names.Pairwise (· < ·) := by
  have hkeys : r.names.Pairwise fun a b => compare a b = .lt := Std.TreeMap.ordered_keys
  exact hkeys.imp compare_lt_iff_lt.mp

variable {r} in
/-- Registries that keep the same factories under the same names answer alike. -/
theorem answers_congr {s : DisassemblerRegistry} (h : ∀ name, r.factory? name = s.factory? name) :
    r.names = s.names ∧
      ∀ name, r.contains name = s.contains name ∧ r.create name = s.create name := by
  have hnames : r.names = s.names := by
    apply (names_pairwise r).eq_of_mem_iff (names_pairwise s)
    intro name
    rw [mem_names_iff, mem_names_iff, h]
  refine ⟨hnames, fun name => ⟨?_, ?_⟩⟩
  · rw [contains_eq_isSome, contains_eq_isSome, h]
  · rw [create_eq, create_eq, h, hnames]

end Answers

/-! What is kept after one registration, and after a run of them. -/

theorem factory?_register (r : DisassemblerRegistry) (key : String) (factory : DisassemblerFactory)
    (name : String) :
    (r.register key factory).factory? name =
      if key = name then some factory else r.factory? name := by
  simp only [factory?, register, Std.TreeMap.getElem?_insert, Std.LawfulEqCmp.compare_eq_iff_eq]

def registerAll (start : DisassemblerRegistry) (steps : List (String × DisassemblerFactory)) :
    DisassemblerRegistry :=
  steps.foldl (fun r step => r.register step.1 step.2) start

section Runs

variable {start : DisassemblerRegistry} {steps : List (String × DisassemblerFactory)}
  {name : String} {factory : DisassemblerFactory}

theorem factory?_registerAll (start : DisassemblerRegistry)
    (steps : List (String × DisassemblerFactory)) (name : String) :
    (start.registerAll steps).factory? name =
      (steps.reverse.lookup name).or (start.factory? name) := by
  induction steps using List.reverseRecOn with
  | nil => rfl
  | append_singleton steps step ih =>
    obtain ⟨key, factory⟩ := step
    have hlast : start.registerAll (steps ++ [(key, factory)]) =
        (start.registerAll steps).register key factory :=
      List.foldl_concat _ _ _ _
    rw [hlast, factory?_register, ih, List.reverse_concat, List.lookup_cons]
    by_cases h : key = name
    · simp [h]
    · have hne : (name == key) = false := beq_false_of_ne (Ne.symm h)
      simp [h, hne]

/-- The last registration under `name` is that of `factory`. -/
def LastUnder (steps : List (String × DisassemblerFactory)) (name : String)
    (factory : DisassemblerFactory) : Prop :=
  ∃ before after, steps = before ++ (name, factory) :: after ∧ ∀ step ∈ after, step.1 ≠ name

theorem lastUnder_iff : LastUnder steps name factory ↔
    steps.reverse.lookup name = some factory := by
  rw [List.lookup_eq_some_iff]
  constructor
  · rintro ⟨before, after, rfl, hafter⟩
    refine ⟨after.reverse, before.reverse, by simp, fun step hstep => ?_⟩
    exact bne_iff_ne.mpr (hafter step (List.mem_reverse.mp hstep)).symm
  · rintro ⟨after, before, hsteps, hafter⟩
    refine ⟨before.reverse, after.reverse, by simpa using congrArg List.reverse hsteps, ?_⟩
    exact fun step hstep => (bne_iff_ne.mp (hafter step (List.mem_reverse.mp hstep))).symm

/-- After `steps` from `start`, this is the factory to be run for the name: the last one that was
registered under it, or else the one that the start has. -/
def Runs (start : DisassemblerRegistry) (steps : List (String × DisassemblerFactory))
    (name : String) (factory : DisassemblerFactory) : Prop :=
  LastUnder steps name factory ∨
    (∀ step ∈ steps, step.1 ≠ name) ∧ start.factory? name = some factory

theorem runs_iff : Runs start steps name factory ↔
    (start.registerAll steps).factory? name = some factory := by
  have hnone : steps.reverse.lookup name = none ↔ ∀ step ∈ steps, step.1 ≠ name := by
    simp only [List.lookup_eq_none_iff, List.mem_reverse, bne_iff_ne, ne_comm]
  rw [factory?_registerAll, Option.or_eq_some_iff, hnone, ← lastUnder_iff]
  rfl

theorem mem_names_registerAll : name ∈ (start.registerAll steps).names ↔
    name ∈ start.names ∨ ∃ step ∈ steps, step.1 = name := by
  have hlast : (steps.reverse.lookup name).isSome = true ↔ ∃ step ∈ steps, step.1 = name := by
    simp only [List.lookup_isSome_iff, List.mem_reverse, beq_iff_eq, @eq_comm _ name]
  rw [mem_names_iff, mem_names_iff, factory?_registerAll, Option.isSome_or, Bool.or_eq_true, hlast,
    or_comm]

theorem create_eq_error_iff {e : DisassemblyError} :
    (start.registerAll steps).create name = .error e ↔ Runs start steps name (.error e) ∨
      name ∉ (start.registerAll steps).names ∧
        e = .unknownName name (start.registerAll steps).names := by
  rw [create_eq, runs_iff, mem_names_iff]
  cases (start.registerAll steps).factory? name with
  | none => simp [eq_comm]
  | some factory => simp

/-- The name is unknown, unless the factory run for it says so itself. -/
theorem create_eq_unknownName_iff
    (hown : ∀ wrong available, ¬ Runs start steps name (.error (.unknownName wrong available))) :
    (∃ wrong available,
      (start.registerAll steps).create name = .error (.unknownName wrong available)) ↔
      name ∉ (start.registerAll steps).names := by
  simp only [create_eq_error_iff]
  constructor
  · rintro ⟨wrong, available, hruns | ⟨hname, -⟩⟩
    · exact absurd hruns (hown wrong available)
    · exact hname
  · exact fun hname => ⟨_, _, .inr ⟨hname, rfl⟩⟩

end Runs

/-- What a registry answers after `steps` from `start`. -/
structure Answers (start : DisassemblerRegistry) (steps : List (String × DisassemblerFactory))
    (r : DisassemblerRegistry) : Prop where
  ascending : r.names.Pairwise fun a b => Text.utf8 a < Text.utf8 b
  names : ∀ name, name ∈ r.names ↔ name ∈ start.names ∨ ∃ step ∈ steps, step.1 = name
  contains : ∀ name, r.contains name = true ↔ name ∈ r.names
  known : ∀ name, name ∈ r.names ↔ ∃ factory, Runs start steps name factory
  create : ∀ name factory, Runs start steps name factory → r.create name = factory
  fails : ∀ name e, r.create name = .error e ↔
    Runs start steps name (.error e) ∨ name ∉ r.names ∧ e = .unknownName name r.names
  unknown : ∀ name,
    (∀ wrong available, ¬ Runs start steps name (.error (.unknownName wrong available))) →
    ((∃ wrong available, r.create name = .error (.unknownName wrong available)) ↔ name ∉ r.names)

theorem answers_registerAll (start : DisassemblerRegistry)
    (steps : List (String × DisassemblerFactory)) :
    Answers start steps (start.registerAll steps) where
  ascending := (names_pairwise _).imp Text.utf8_lt_utf8
  names _ := mem_names_registerAll
  contains name := by rw [contains_eq_isSome, mem_names_iff]
  known name := by simp only [mem_names_iff, Option.isSome_iff_exists, runs_iff]
  create name factory h := by rw [create_eq, runs_iff.mp h, Option.getD_some]
  fails _ _ := create_eq_error_iff
  unknown _ := create_eq_unknownName_iff

/-- After any registrations from any start, the names ascend in the order of their bytes and are
those of the start and of the registrations; a name is contained if it is one of them, and creating
it runs the factory registered under it last and returns what that returns, error or not. Other
names are unknown, and the error lists the names there are. Two runs that end with the same factory
under each name they register give registries that cannot be told apart. -/
theorem registerAll_exact (start : DisassemblerRegistry)
    (steps : List (String × DisassemblerFactory)) :
    Answers start steps (start.registerAll steps) ∧
    (∀ name, (DisassemblyError.unknownName name (start.registerAll steps).names).message =
      "unknown disassembler " ++ Text.quoted name ++ " (available: " ++
        ", ".intercalate (start.registerAll steps).names ++ ")") ∧
    ∀ other, (∀ name factory, LastUnder steps name factory ↔ LastUnder other name factory) →
      (start.registerAll steps).names = (start.registerAll other).names ∧
      ∀ name, (start.registerAll steps).contains name = (start.registerAll other).contains name ∧
        (start.registerAll steps).create name = (start.registerAll other).create name := by
  refine ⟨answers_registerAll start steps, fun name => rfl, fun other h => answers_congr ?_⟩
  intro name
  have hlast : steps.reverse.lookup name = other.reverse.lookup name := by
    ext factory
    rw [← lastUnder_iff, ← lastUnder_iff, h]
  rw [factory?_registerAll, factory?_registerAll, hlast]

/-- Two names are registered twice, one of them from the start. The last factory under `é` fails,
and that is no unknown name. -/
theorem registerAll_exact_replaced :
    let broken : Disassembler :=
      ⟨"broken", fun bytes address => .error (.undecodable address bytes "broken")⟩
    let failing : DisassemblerFactory := .error (.startup "nope")
    let steps : List (String × DisassemblerFactory) :=
      [("zz", .ok .hex), ("hex", failing), ("é", .ok broken), ("hex", .ok broken), ("é", failing)]
    let other : List (String × DisassemblerFactory) :=
      [("é", failing), ("hex", .ok broken), ("zz", .ok .hex)]
    let r := standard.registerAll steps
    r.names = ["capstone", "hex", "zz", "é"] ∧
      (r.names.Pairwise fun a b => Text.utf8 a < Text.utf8 b) ∧
      r.create "hex" = .ok broken ∧ r.create "capstone" = .ok .mnemonic ∧
      r.create "é" = .error (.startup "nope") ∧
      ((∃ wrong available, r.create "é" = .error (.unknownName wrong available)) ↔
        "é" ∉ r.names) ∧
      r.create "Hex" = .error (.unknownName "Hex" ["capstone", "hex", "zz", "é"]) ∧
      (∀ name factory, LastUnder steps name factory ↔ LastUnder other name factory) ∧
      ∀ name, r.create name = (standard.registerAll other).create name := by
  intro broken failing steps other r
  have hnames : r.names = ["capstone", "hex", "zz", "é"] := by decide +kernel
  have hsame (name : String) (factory : DisassemblerFactory) :
      LastUnder steps name factory ↔ LastUnder other name factory := by
    rw [lastUnder_iff, lastUnder_iff]
    by_cases hzz : name = "zz" <;> by_cases hhex : name = "hex" <;> by_cases hacute : name = "é" <;>
      simp_all [steps, other, List.lookup_cons, beq_false_of_ne]
  obtain ⟨answers, -, hother⟩ := registerAll_exact standard steps
  have hfailing : Runs standard steps "é" failing :=
    .inl ⟨[_, _, _, _], [], rfl, by simp⟩
  refine ⟨hnames, answers.ascending, answers.create "hex" _ (.inl ⟨[_, _, _], [_], rfl, by simp⟩),
    answers.create "capstone" _ (.inr ⟨by simp [steps], rfl⟩), answers.create "é" _ hfailing,
    answers.unknown "é" fun wrong available hruns => ?_,
    (answers.fails "Hex" _).mpr (.inr ⟨by rw [hnames]; decide, by rw [hnames]⟩), hsame,
    fun name => ((hother other hsame).2 name).2⟩
  have hcreate := (answers.create "é" _ hruns).symm.trans (answers.create "é" _ hfailing)
  simp [failing] at hcreate

/-- A factory may fail with the error for unknown names, and the registry passes that on. -/
theorem registered_name_unknown :
    let r := empty.registerAll [("x", .error (.unknownName "x" ["x"]))]
    r.names = ["x"] ∧ r.create "x" = .error (.unknownName "x" r.names) ∧
      ¬ ((∃ wrong available, r.create "x" = .error (.unknownName wrong available)) ↔
        "x" ∉ r.names) := by
  intro r
  have hnames : r.names = ["x"] := by decide +kernel
  have hcreate : r.create "x" = .error (.unknownName "x" r.names) := by
    rw [hnames]
    rfl
  refine ⟨hnames, hcreate, fun h => ?_⟩
  have habsent : "x" ∉ r.names := h.mp ⟨"x", r.names, hcreate⟩
  rw [hnames] at habsent
  simp at habsent

end IndirectBranch.DisassemblerRegistry
