import IndirectBranch.SymbolIndex
import Mathlib.Tactic.Common

/-! The symbol index finds the nearest symbol of the table: of the symbols at the greatest address
that is not above the one asked for, the one that comes first in the table. The two bisections of
the sorted table agree with this linear reading of it, whatever the order of the table and however
many symbols share an address. -/
namespace IndirectBranch

/-- `s` is the first symbol of the table at the greatest address that is not above `address`. -/
structure Nearest (table : List Symbol) (address : Nat) (s : Symbol) : Prop where
  below : s.address.toNat ≤ address
  greatest : ∀ t ∈ table, t.address.toNat ≤ address → t.address.toNat ≤ s.address.toNat
  first : ∃ before after, table = before ++ s :: after ∧ ∀ t ∈ before, t.address ≠ s.address

theorem Nearest.mem {table : List Symbol} {address : Nat} {s : Symbol}
    (h : Nearest table address s) : s ∈ table := by
  obtain ⟨before, after, rfl, -⟩ := h.first
  simp

/-- The symbols at the nearest address start with the nearest symbol. -/
theorem Nearest.filter_eq {table : List Symbol} {address : Nat} {s : Symbol}
    (h : Nearest table address s) :
    ∃ more, table.filter (·.address == s.address) = s :: more := by
  obtain ⟨before, after, rfl, hbefore⟩ := h.first
  have hnone : before.filter (·.address == s.address) = [] := by
    simpa [List.filter_eq_nil_iff] using hbefore
  exact ⟨after.filter (·.address == s.address), by simp [List.filter_append, hnone]⟩

theorem Nearest.unique {table : List Symbol} {address : Nat} {s t : Symbol}
    (hs : Nearest table address s) (ht : Nearest table address t) : s = t := by
  have haddress : s.address = t.address :=
    UInt64.toNat_inj.mp (Nat.le_antisymm (ht.greatest s hs.mem hs.below)
      (hs.greatest t ht.mem ht.below))
  obtain ⟨more, hmore⟩ := hs.filter_eq
  obtain ⟨more', hmore'⟩ := ht.filter_eq
  rw [haddress, hmore'] at hmore
  exact (List.cons.inj hmore).1.symm

theorem exists_nearest {table : List Symbol} {address : Nat}
    (h : ∃ t ∈ table, t.address.toNat ≤ address) : ∃ s, Nearest table address s := by
  induction table with
  | nil => simp at h
  | cons x rest ih =>
    by_cases hrest : ∃ t ∈ rest, t.address.toNat ≤ address
    · obtain ⟨s, hs⟩ := ih hrest
      by_cases hx : x.address.toNat ≤ address ∧ s.address.toNat ≤ x.address.toNat
      · refine ⟨x, hx.1, ?_, [], rest, rfl, by simp⟩
        rintro t ht hta
        rcases List.mem_cons.mp ht with rfl | ht
        · exact Nat.le_refl _
        · exact Nat.le_trans (hs.greatest t ht hta) hx.2
      · obtain ⟨before, after, rfl, hbefore⟩ := hs.first
        have hne : x.address ≠ s.address := by
          intro he
          exact hx ⟨he ▸ hs.below, he ▸ Nat.le_refl _⟩
        refine ⟨s, hs.below, ?_, x :: before, after, rfl, ?_⟩
        · rintro t ht hta
          rcases List.mem_cons.mp ht with rfl | ht
          · omega
          · exact hs.greatest t ht hta
        · intro t ht
          rcases List.mem_cons.mp ht with rfl | ht
          · exact hne
          · exact hbefore t ht
    · obtain ⟨t, ht, hta⟩ := h
      rcases List.mem_cons.mp ht with rfl | ht
      · refine ⟨t, hta, ?_, [], rest, rfl, by simp⟩
        intro u hu hua
        rcases List.mem_cons.mp hu with rfl | hu
        · exact Nat.le_refl _
        · exact absurd ⟨u, hu, hua⟩ hrest
      · exact absurd ⟨t, ht, hta⟩ hrest

/-- The table read as it stands: its first symbol at or below the address that no other such
symbol lies above. -/
def nearestInTable? (table : List Symbol) (address : UInt64) : Option Symbol :=
  table.find? fun s =>
    s.address ≤ address ∧ ∀ t ∈ table, t.address ≤ address → t.address ≤ s.address

theorem nearestInTable?_eq_some_iff {table : List Symbol} {address : UInt64} {s : Symbol} :
    nearestInTable? table address = some s ↔ Nearest table address.toNat s := by
  simp only [nearestInTable?, List.find?_eq_some_iff_append, decide_eq_true_eq, Bool.not_eq_true',
    decide_eq_false_iff_not, UInt64.le_iff_toNat_le]
  constructor
  · rintro ⟨⟨hbelow, hgreatest⟩, before, after, htable, hbefore⟩
    refine ⟨hbelow, hgreatest, before, after, htable, ?_⟩
    rintro t ht heq
    exact hbefore t ht (heq ▸ ⟨hbelow, hgreatest⟩)
  · rintro ⟨hbelow, hgreatest, before, after, htable, hbefore⟩
    refine ⟨⟨hbelow, hgreatest⟩, before, after, htable, ?_⟩
    rintro t ht ⟨htbelow, htgreatest⟩
    have hmem : t ∈ table ∧ s ∈ table := by
      subst htable
      exact ⟨List.mem_append_left _ ht, by simp⟩
    exact hbefore t ht (UInt64.toNat_inj.mp
      (Nat.le_antisymm (hgreatest t hmem.1 htbelow) (htgreatest s hmem.2 hbelow)))

theorem nearestInTable?_eq_none_iff {table : List Symbol} {address : UInt64} :
    nearestInTable? table address = none ↔ ∀ t ∈ table, address < t.address := by
  rw [Option.eq_none_iff_forall_ne_some]
  simp only [ne_eq, nearestInTable?_eq_some_iff, UInt64.lt_iff_toNat_lt]
  constructor
  · intro hnone t ht
    by_contra hle
    obtain ⟨s, hs⟩ := exists_nearest ⟨t, ht, Nat.not_lt.mp hle⟩
    exact hnone s hs
  · intro habove s hs
    exact absurd hs.below (Nat.not_le.mpr (habove s hs.mem))

/-- If `p` holds below `n` and not from `n` on, bisection finds `n`. -/
theorem bisect_eq {p : Nat → Bool} {lo n hi : Nat} (hlo : lo ≤ n) (hhi : n ≤ hi)
    (hbelow : ∀ i, i < n → p i = true) (habove : ∀ i, n ≤ i → i < hi → p i = false) :
    bisect p lo hi = n := by
  fun_induction bisect p lo hi with
  | case1 lo hi hlt mid hp ih =>
    have hmid : mid < n := by
      by_contra hge
      have := habove mid (by omega) (by omega)
      simp_all
    exact ih hmid hhi habove
  | case2 lo hi hlt mid hp ih =>
    have hmid : n ≤ mid := by
      by_contra hge
      exact hp (hbelow mid (by omega))
    exact ih hlo hmid fun i hi' hmi => habove i hi' (by omega)
  | case3 lo hi hge => omega

theorem bisect_le {p : Nat → Bool} {lo hi : Nat} (h : lo ≤ hi) : bisect p lo hi ≤ hi := by
  fun_induction bisect p lo hi with
  | case1 lo hi hlt mid hp ih => exact ih (by omega)
  | case2 lo hi hlt mid hp ih => exact Nat.le_trans (ih (by omega)) (by omega)
  | case3 lo hi hge => exact h

/-- Bisection stops short of an end that does not satisfy `p`. -/
theorem bisect_lt {p : Nat → Bool} {lo hi : Nat} (h : lo < hi) (hp : p (hi - 1) = false) :
    bisect p lo hi < hi := by
  fun_induction bisect p lo hi with
  | case1 lo hi hlt mid hmid ih =>
    have hne : mid ≠ hi - 1 := by
      rintro heq
      rw [heq, hp] at hmid
      cases hmid
    exact ih (by omega) hp
  | case2 lo hi hlt mid hmid ih =>
    have hle : bisect p lo mid ≤ mid := bisect_le (by omega)
    omega
  | case3 lo hi hge => exact absurd h hge

namespace SymbolIndex

/-- The bisection counts the symbols that satisfy `p`, if those come first. -/
theorem countWhere_eq {ix : SymbolIndex} {p : UInt64 → Bool} (first rest tail : List Symbol)
    (hsorted : ix.sorted.toList = first ++ rest ++ tail)
    (hfirst : ∀ s ∈ first, p s.address = true) (hrest : ∀ s ∈ rest, p s.address = false) :
    ix.countWhere p (first ++ rest).length = first.length := by
  have hget (i : Nat) (hi : i < (first ++ rest).length) :
      ix.sorted[i]? = (first ++ rest)[i]? := by
    rw [← Array.getElem?_toList, hsorted, List.getElem?_append_left hi]
  unfold countWhere
  apply bisect_eq (Nat.zero_le _) (by simp)
  · intro i hi
    have hlt : i < (first ++ rest).length := by simp; omega
    rw [hget i hlt, List.getElem?_append_left hi, List.getElem?_eq_getElem hi]
    exact hfirst _ (List.getElem_mem hi)
  · intro i hle hi
    rw [hget i hi, List.getElem?_append_right hle, List.getElem?_eq_getElem]
    · exact hrest _ (List.getElem_mem _)
    · simp at hi
      omega

theorem sorted_ofTable (table : List Symbol) :
    (ofTable table).sorted.toList.Pairwise fun s t => s.address.toNat ≤ t.address.toNat := by
  have h : (ofTable table).sorted.toList.Pairwise
      fun s t => decide (s.address ≤ t.address) = true :=
    List.pairwise_mergeSort (by simpa using fun a b c => UInt64.le_trans)
      (by simpa using fun a b => UInt64.le_total _ _) table
  simpa [UInt64.le_iff_toNat_le] using h

theorem perm_ofTable (table : List Symbol) : (ofTable table).sorted.toList.Perm table :=
  List.mergeSort_perm table _

/-- Sorting keeps the symbols of one address in the order of the table. -/
theorem filter_ofTable (table : List Symbol) (address : UInt64) :
    (ofTable table).sorted.toList.filter (·.address == address) =
      table.filter (·.address == address) := by
  have hpairwise : (table.filter (·.address == address)).Pairwise
      fun s t => decide (s.address ≤ t.address) = true := by
    apply List.pairwise_of_forall_mem_list
    intro s hs t ht
    simp only [List.mem_filter, beq_iff_eq] at hs ht
    simp [hs.2, ht.2]
  have hsublist : (table.filter (·.address == address)).Sublist
      (ofTable table).sorted.toList :=
    List.sublist_mergeSort (by simpa using fun a b c => UInt64.le_trans)
      (by simpa using fun a b => UInt64.le_total _ _) hpairwise List.filter_sublist
  have hkept := hsublist.filter (·.address == address)
  simp only [List.filter_filter, Bool.and_self] at hkept
  exact (hkept.eq_of_length ((perm_ofTable table).filter _).length_eq.symm).symm

/-- A sorted table falls apart at every bound: what satisfies it, then what does not. -/
theorem filter_append_filter {sorted : List Symbol} {p : UInt64 → Bool}
    (hsorted : sorted.Pairwise fun s t => s.address.toNat ≤ t.address.toNat)
    (hp : ∀ a b : UInt64, a.toNat ≤ b.toNat → p b = true → p a = true) :
    sorted.filter (p ·.address) ++ sorted.filter (!p ·.address) = sorted := by
  induction sorted with
  | nil => rfl
  | cons s rest ih =>
    obtain ⟨hs, hrest⟩ := List.pairwise_cons.mp hsorted
    by_cases h : p s.address = true
    · simp [h, ih hrest]
    · have hnone : rest.filter (p ·.address) = [] := by
        simp only [List.filter_eq_nil_iff]
        exact fun t ht htp => h (hp _ _ (hs t ht) htp)
      have hih := ih hrest
      rw [hnone, List.nil_append] at hih
      simp [h, hnone, hih]

theorem nearest?_eq_none {table : List Symbol} {address : UInt64}
    (h : ∀ t ∈ table, address.toNat < t.address.toNat) :
    (ofTable table).nearest? address = none := by
  have habove : (ofTable table).countWhere (· ≤ address) (ofTable table).sorted.size = 0 := by
    apply countWhere_eq [] (ofTable table).sorted.toList []
    · simp
    · simp
    · intro s hs
      have := h s ((perm_ofTable table).mem_iff.mp hs)
      simp [UInt64.le_iff_toNat_le]
      omega
  simp [nearest?, habove]

/-- The sorted table around the nearest symbol: nearer to the start of the address space, the
symbols at its address with itself in front, and everything above the address asked for. -/
theorem sorted_eq_of_nearest {table : List Symbol} {address : UInt64} {s : Symbol}
    (h : Nearest table address.toNat s) :
    ∃ lower more higher, (ofTable table).sorted.toList = lower ++ s :: more ++ higher ∧
      (∀ t ∈ lower, t.address < s.address) ∧ (∀ t ∈ more, t.address = s.address) ∧
      ∀ t ∈ higher, address < t.address := by
  have hsorted := sorted_ofTable table
  have hmem (t : Symbol) : t ∈ (ofTable table).sorted.toList → t ∈ table :=
    (perm_ofTable table).mem_iff.mp
  have hgroup := filter_ofTable table s.address
  generalize (ofTable table).sorted.toList = sorted at hsorted hmem hgroup ⊢
  obtain ⟨more, hmore⟩ := h.filter_eq
  have hlow := filter_append_filter (p := (· < s.address)) hsorted
    (by simp only [decide_eq_true_eq, UInt64.lt_iff_toNat_lt]; omega)
  have hhigh := filter_append_filter (p := (· ≤ address))
    (hsorted.filter fun t => !decide (t.address < s.address))
    (by simp only [decide_eq_true_eq, UInt64.le_iff_toNat_le]; omega)
  have hmiddle : (sorted.filter fun t => !decide (t.address < s.address)).filter
      (fun t => decide (t.address ≤ address)) = s :: more := by
    rw [← hmore, ← hgroup, List.filter_filter]
    apply List.filter_congr
    intro t ht
    have hgreatest := h.greatest t (hmem t ht)
    have hbelow := h.below
    rw [Bool.eq_iff_iff]
    simp only [Bool.and_eq_true, Bool.not_eq_true', decide_eq_true_eq, decide_eq_false_iff_not,
      beq_iff_eq, UInt64.le_iff_toNat_le, UInt64.lt_iff_toNat_lt, ← UInt64.toNat_inj]
    omega
  rw [hmiddle] at hhigh
  rw [← hhigh] at hlow
  refine ⟨_, more, _, ((List.append_assoc _ _ _).trans hlow).symm, ?_, ?_, ?_⟩
  · intro t ht
    simpa using (List.mem_filter.mp ht).2
  · intro t ht
    have hmem' : t ∈ table.filter (·.address == s.address) := hmore ▸ List.mem_cons_of_mem _ ht
    simpa using (List.mem_filter.mp hmem').2
  · intro t ht
    simpa using (List.mem_filter.mp ht).2

theorem nearest?_eq_some {table : List Symbol} {address : UInt64} {s : Symbol}
    (h : Nearest table address.toNat s) : (ofTable table).nearest? address = some s := by
  obtain ⟨lower, more, higher, hsorted, hlower, hmore, hhigher⟩ := sorted_eq_of_nearest h
  have hbelow : s.address ≤ address := UInt64.le_iff_toNat_le.mpr h.below
  have hsize : (ofTable table).sorted.size = (lower ++ s :: more ++ higher).length := by
    rw [← hsorted, Array.length_toList]
  have habove : (ofTable table).countWhere (· ≤ address) (ofTable table).sorted.size =
      (lower ++ s :: more).length := by
    rw [hsize]
    apply countWhere_eq (lower ++ s :: more) higher [] (by simpa using hsorted)
    · intro t ht
      rcases List.mem_append.mp ht with ht | ht
      · exact decide_eq_true (UInt64.le_of_lt (UInt64.lt_of_lt_of_le (hlower t ht) hbelow))
      · rcases List.mem_cons.mp ht with rfl | ht
        · exact decide_eq_true hbelow
        · exact decide_eq_true (hmore t ht ▸ hbelow)
    · exact fun t ht => decide_eq_false (UInt64.not_le.mpr (hhigher t ht))
  have hfirst : (ofTable table).countWhere (· < s.address) (lower ++ s :: more).length =
      lower.length := by
    apply countWhere_eq lower (s :: more) higher hsorted
    · exact fun t ht => decide_eq_true (hlower t ht)
    · intro t ht
      rcases List.mem_cons.mp ht with rfl | ht
      · simp
      · simp [hmore t ht]
  have hget (i : Nat) : (ofTable table).sorted[i]? = (lower ++ s :: more ++ higher)[i]? := by
    rw [← hsorted, Array.getElem?_toList]
  obtain ⟨last, hlast, hlastAddress⟩ : ∃ last,
      (ofTable table).sorted[(lower ++ s :: more).length - 1]? = some last ∧
        last.address = s.address := by
    refine ⟨(s :: more).getLast (List.cons_ne_nil s more), ?_, ?_⟩
    · rw [hget, List.getElem?_append_left (by simp), List.getElem?_append_right (by simp),
        List.getLast_eq_getElem, ← List.getElem?_eq_getElem]
      congr 1
      simp
    · rcases List.mem_cons.mp (List.getLast_mem (List.cons_ne_nil s more)) with he | he
      · rw [he]
      · exact hmore _ he
  have hnonzero : (lower ++ s :: more).length ≠ 0 := by simp
  simp only [nearest?, habove, hnonzero, ↓reduceIte, hlast, Option.bind_eq_bind, Option.bind_some,
    hlastAddress, hfirst]
  rw [hget]
  simp

theorem nearest?_eq_some_iff {table : List Symbol} {address : UInt64} {s : Symbol} :
    (ofTable table).nearest? address = some s ↔ Nearest table address.toNat s := by
  constructor
  · intro h
    by_cases hany : ∃ t ∈ table, t.address.toNat ≤ address.toNat
    · obtain ⟨t, ht⟩ := exists_nearest hany
      rw [nearest?_eq_some ht] at h
      exact Option.some.inj h ▸ ht
    · rw [nearest?_eq_none] at h
      · cases h
      · exact fun t ht => Nat.lt_of_not_le fun hle => hany ⟨t, ht, hle⟩
  · exact nearest?_eq_some

/-- A place is resolved to the nearest symbol, and otherwise to the unknown name. -/
theorem resolveOrUnknown_eq (ix : SymbolIndex) (address : UInt64) :
    ix.resolveOrUnknown address =
      match ix.nearest? address with
      | some s => (s.name, address - s.address)
      | none => (unknownName, address) := by
  unfold resolveOrUnknown resolve
  cases ix.nearest? address <;> rfl

theorem nearest?_eq_nearestInTable? (table : List Symbol) (address : UInt64) :
    (ofTable table).nearest? address = nearestInTable? table address := by
  ext s
  rw [nearest?_eq_some_iff, nearestInTable?_eq_some_iff]

/-- Whatever the table, the places read by a look-up lie in it: the last symbol that is not above
the address, and the first of those at the same address. -/
theorem indices_in_range (ix : SymbolIndex) (address : UInt64) :
    let above := ix.countWhere (· ≤ address) ix.sorted.size
    above ≤ ix.sorted.size ∧ (above = 0 ∨ ∃ last, ix.sorted[above - 1]? = some last ∧
      ix.countWhere (· < last.address) above < above) := by
  intro above
  have hle : above ≤ ix.sorted.size := bisect_le (Nat.zero_le _)
  refine ⟨hle, (Nat.eq_zero_or_pos above).imp_right fun hpos => ?_⟩
  have hlast : above - 1 < ix.sorted.size := by omega
  refine ⟨ix.sorted[above - 1], Array.getElem?_eq_getElem hlast, bisect_lt hpos ?_⟩
  simp [Array.getElem?_eq_getElem hlast]

theorem resolve_eq_error_iff {table : List Symbol} {address : UInt64} {u : Unresolved} :
    (ofTable table).resolve address = .error u ↔
      u = ⟨address⟩ ∧ ∀ t ∈ table, address < t.address := by
  rw [resolve, nearest?_eq_nearestInTable?, ← nearestInTable?_eq_none_iff]
  cases nearestInTable? table address with
  | none => simp [eq_comm]
  | some s => simp

theorem resolve_eq_ok_iff {table : List Symbol} {address : UInt64} {name : String}
    {offset : UInt64} :
    (ofTable table).resolve address = .ok (name, offset) ↔
      ∃ s, nearestInTable? table address = some s ∧ name = s.name ∧
        s.address.toNat + offset.toNat = address.toNat := by
  rw [resolve, nearest?_eq_nearestInTable?]
  cases h : nearestInTable? table address with
  | none => simp
  | some s =>
    have hle : s.address ≤ address :=
      UInt64.le_iff_toNat_le.mpr (nearestInTable?_eq_some_iff.mp h).below
    have hsub := UInt64.toNat_sub_of_le address s.address hle
    have hoffset : address - s.address = offset ↔
        s.address.toNat + offset.toNat = address.toNat := by
      rw [← UInt64.toNat_inj, hsub]
      rw [UInt64.le_iff_toNat_le] at hle
      omega
    simp [hoffset, @eq_comm String name]

/-- The index answers as the table does, read as it stands. It fails exactly if all symbols lie
above the address; else it gives the name of the nearest symbol, the first one at its address, and
the distance from it, which is no wrapped difference. No place outside the sorted table is read. -/
theorem resolve_linear (table : List Symbol) (address : UInt64) :
    let ix := ofTable table
    let above := ix.countWhere (· ≤ address) ix.sorted.size
    (∀ u, ix.resolve address = .error u ↔ u = ⟨address⟩ ∧ ∀ t ∈ table, address < t.address) ∧
    (∀ name offset, ix.resolve address = .ok (name, offset) ↔
      ∃ s, nearestInTable? table address = some s ∧ name = s.name ∧
        s.address.toNat + offset.toNat = address.toNat) ∧
    above ≤ ix.sorted.size ∧ (above = 0 ∨ ∃ last, ix.sorted[above - 1]? = some last ∧
      ix.countWhere (· < last.address) above < above) :=
  ⟨fun _ => resolve_eq_error_iff, fun _ _ => resolve_eq_ok_iff, indices_in_range _ address⟩

def tiedTable : List Symbol :=
  [⟨"end", 0xffffffffffffffff⟩, ⟨"start", 8⟩, ⟨"alias", 8⟩, ⟨"end_alias", 0xffffffffffffffff⟩]

theorem resolve_linear_tied :
    (∀ t ∈ tiedTable, 7 < t.address) ∧ (ofTable tiedTable).resolve 7 = .error ⟨7⟩ ∧
      (ofTable tiedTable).resolve 8 = .ok ("start", 0) ∧
      (ofTable tiedTable).resolve 0xfffffffffffffffe = .ok ("start", 0xfffffffffffffff6) ∧
      (ofTable tiedTable).resolve 0xffffffffffffffff = .ok ("end", 0) := by
  have hlow : ∀ t ∈ tiedTable, 7 < t.address := by decide
  have hok (address : UInt64) (name : String) (offset : UInt64) :=
    ((resolve_linear tiedTable address).2.1 name offset).mpr
  refine ⟨hlow, ((resolve_linear tiedTable 7).1 _).mpr ⟨rfl, hlow⟩, hok _ _ _ ?_, hok _ _ _ ?_,
    hok _ _ _ ?_⟩
  · exact ⟨⟨"start", 8⟩, by decide, rfl, rfl⟩
  · exact ⟨⟨"start", 8⟩, by decide, rfl, rfl⟩
  · exact ⟨⟨"end", 0xffffffffffffffff⟩, by decide, rfl, rfl⟩

end SymbolIndex
end IndirectBranch
