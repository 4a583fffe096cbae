import IndirectBranch.Proofs.NearestSymbol
import IndirectBranch.Proofs.Scan

/-! The sorted table behind the symbol index. It has every entry of the table once, in ascending
order of address, and entries at one address in the order in which the table has them. Whatever lies
up to a bound is then a prefix of it, and bisection finds where that prefix ends. -/
namespace IndirectBranch.SymbolIndex

/-- Entries with their place in the table: the lower address first, of one address the earlier
place. -/
def Precedes (x y : Symbol × Nat) : Prop :=
  x.1.address < y.1.address ∨ x.1.address = y.1.address ∧ x.2 < y.2

/-- No two entries share a place, so a stable comparison puts them in strict order. -/
theorem precedes_of_zipIdxLE {x y : Symbol × Nat} (hplace : x.2 ≠ y.2)
    (h : List.zipIdxLE (fun s t : Symbol => decide (s.address ≤ t.address)) x y = true) :
    Precedes x y := by
  unfold List.zipIdxLE at h
  by_cases hxy : x.1.address ≤ y.1.address
  · by_cases hyx : y.1.address ≤ x.1.address
    · have hle : x.2 ≤ y.2 := by simpa [hxy, hyx] using h
      exact .inr ⟨UInt64.le_antisymm hxy hyx, by omega⟩
    · exact .inl (UInt64.not_le.mp hyx)
  · simp [hxy] at h

/-- Sorting moves the entries, each with its place, and orders them by address and then by place. -/
theorem exists_places (table : List Symbol) :
    ∃ entries : List (Symbol × Nat), entries.Perm table.zipIdx ∧
      entries.map (·.1) = (ofTable table).sorted.toList ∧ entries.Pairwise Precedes := by
  let le (s t : Symbol) : Bool := decide (s.address ≤ t.address)
  have hperm := List.mergeSort_perm table.zipIdx (List.zipIdxLE le)
  refine ⟨table.zipIdx.mergeSort (List.zipIdxLE le), hperm, List.mergeSort_zipIdx, ?_⟩
  have hsorted := List.pairwise_mergeSort
    (List.zipIdxLE_trans (show ∀ s t u, le s t → le t u → le s u by
      simpa [le] using fun s t u => UInt64.le_trans))
    (List.zipIdxLE_total (by simpa [le] using fun s t => UInt64.le_total _ _)) table.zipIdx
  have hplaces : ((table.zipIdx.mergeSort (List.zipIdxLE le)).map (·.2)).Nodup := by
    rw [(hperm.map _).nodup_iff, List.zipIdx_map_snd]
    exact List.nodup_range'
  rw [List.nodup_iff_pairwise_ne, List.pairwise_map] at hplaces
  exact hsorted.imp₂ (fun x y hle hne => precedes_of_zipIdxLE hne hle) hplaces

/-- In a table in ascending order, bisection finds how far the entries within a bound reach. -/
theorem countWhere_eq_length_takeWhile {ix : SymbolIndex} {p : UInt64 → Bool} {count : Nat}
    (hsorted : ix.sorted.toList.Pairwise fun s t => s.address.toNat ≤ t.address.toNat)
    (hp : ∀ a b : UInt64, a.toNat ≤ b.toNat → p b = true → p a = true)
    (hcount : count ≤ ix.sorted.size) :
    ix.countWhere p count = ((ix.sorted.toList.take count).takeWhile (p ·.address)).length := by
  have htaken := hsorted.sublist (List.take_sublist count ix.sorted.toList)
  rw [Scan.takeWhile_eq_filter (htaken.imp fun hle => hp _ _ hle)]
  let first := (ix.sorted.toList.take count).filter (p ·.address)
  let rest := (ix.sorted.toList.take count).filter (!p ·.address)
  have hparts : first ++ rest = ix.sorted.toList.take count := filter_append_filter htaken hp
  have hlength : (first ++ rest).length = count := by
    rw [hparts, List.length_take, Array.length_toList, Nat.min_eq_left hcount]
  calc ix.countWhere p count = ix.countWhere p (first ++ rest).length := by rw [hlength]
    _ = first.length := by
      apply countWhere_eq first rest (ix.sorted.toList.drop count)
      · rw [hparts, List.take_append_drop]
      · exact fun s hs => (List.mem_filter.mp hs).2
      · exact fun s hs => by simpa using (List.mem_filter.mp hs).2

/-- The sorted table is a permutation of the table in ascending order of address, and entries at one
address keep the order of their places. The places that a look-up bisects for are the ends of the
longest prefixes up to its two bounds: of what is not above the address, and in it of what lies
below the nearest address. -/
theorem sorted_exact (table : List Symbol) :
    let ix := ofTable table
    let sorted := ix.sorted.toList
    sorted.Perm table ∧ (sorted.Pairwise fun s t => s.address ≤ t.address) ∧
    (∃ entries : List (Symbol × Nat), entries.Perm table.zipIdx ∧
      entries.map (·.1) = sorted ∧ entries.Pairwise Precedes) ∧
    ∀ address, let above := ix.countWhere (· ≤ address) ix.sorted.size
      above = (sorted.takeWhile (·.address ≤ address)).length ∧
      ∀ nearest, ix.countWhere (· < nearest) above =
        ((sorted.take above).takeWhile (·.address < nearest)).length := by
  intro ix sorted
  have hsorted := sorted_ofTable table
  refine ⟨perm_ofTable table, hsorted.imp UInt64.le_iff_toNat_le.mpr, exists_places table, ?_⟩
  intro address above
  have habove : above = ((sorted.take ix.sorted.size).takeWhile (·.address ≤ address)).length := by
    apply countWhere_eq_length_takeWhile hsorted _ (Nat.le_refl _)
    simp only [decide_eq_true_eq, UInt64.le_iff_toNat_le]
    omega
  refine ⟨by rwa [← Array.length_toList, List.take_length] at habove, fun nearest => ?_⟩
  apply countWhere_eq_length_takeWhile hsorted _ (bisect_le (Nat.zero_le _))
  simp only [decide_eq_true_eq, UInt64.lt_iff_toNat_lt]
  omega

end IndirectBranch.SymbolIndex
