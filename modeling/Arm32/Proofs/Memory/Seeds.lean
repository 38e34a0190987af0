import Arm32.Memory

namespace Arm32.Memory

/-! Seeds from pairs of an address and a word. Pairs of one address make one seed,
at the place of the first of them and with the word of the last. -/

/-- What pairs collapse into. -/
structure Collapses (pairs : List (Int × Int)) (seeds : Seeds) : Prop where
  places : seeds.map (·.1) = (pairs.map (·.1)).eraseDups
  words : ∀ address, seeds.lookup address = pairs.reverse.lookup address

namespace Seeds

theorem lookup_cons (seed : Int × Int) (seeds : Seeds) (address : Int) :
    List.lookup address (seed :: seeds) =
      if address = seed.1 then some seed.2 else seeds.lookup address := by
  rw [List.lookup_cons]
  by_cases here : address = seed.1
  · simp [here]
  · rw [beq_eq_false_iff_ne.mpr here, if_neg here]

/-- The seeds with another word for an address that they may have already. -/
def replace (seeds : Seeds) (address value : Int) : Seeds :=
  seeds.map fun seed => if seed.1 == address then (address, value) else seed

theorem insert_eq (seeds : Seeds) (address value : Int) :
    seeds.insert address value =
      if address ∈ seeds.map (·.1) then seeds.replace address value
      else seeds ++ [(address, value)] := by
  have known : seeds.any (·.1 == address) = true ↔ address ∈ seeds.map (·.1) := by
    simp [List.any_eq_true]
  simp only [insert, replace, known]

theorem replace_cons (seed : Int × Int) (seeds : Seeds) (address value : Int) :
    replace (seed :: seeds) address value =
      (if seed.1 = address then (address, value) else seed) :: seeds.replace address value := by
  simp [replace]

theorem map_replace (seeds : Seeds) (address value : Int) :
    (seeds.replace address value).map (·.1) = seeds.map (·.1) := by
  induction seeds with
  | nil => rfl
  | cons seed seeds same =>
      rw [replace_cons, List.map_cons, List.map_cons, same]
      split
      case isTrue here => rw [here]
      case isFalse => rfl

theorem lookup_replace (seeds : Seeds) (address value other : Int) :
    (seeds.replace address value).lookup other =
      if other = address ∧ address ∈ seeds.map (·.1) then some value
      else seeds.lookup other := by
  induction seeds with
  | nil => simp [replace]
  | cons seed seeds same =>
      rw [replace_cons, lookup_cons, lookup_cons, same]
      by_cases wanted : other = address
      case neg =>
        by_cases here : seed.1 = address
        · simp [here, wanted]
        · simp [here, wanted]
      case pos =>
        subst wanted
        by_cases here : other = seed.1
        · simp [here]
        · simp only [here, if_neg (Ne.symm here), List.map_cons, List.mem_cons, false_or, if_false]

theorem lookup_eq_none {seeds : Seeds} {address : Int} (unknown : address ∉ seeds.map (·.1)) :
    seeds.lookup address = none := by
  rw [List.lookup_eq_none_iff]
  intro seed among
  simp only [List.mem_map, not_exists, not_and] at unknown
  exact bne_iff_ne.mpr fun same => unknown seed among same.symm

end Seeds

variable {pairs : List (Int × Int)} {seeds : Seeds}

theorem Collapses.mem_iff (collapses : Collapses pairs seeds) (address : Int) :
    address ∈ seeds.map (·.1) ↔ address ∈ pairs.map (·.1) := by
  rw [collapses.places, List.mem_eraseDups]

theorem Collapses.insert (collapses : Collapses pairs seeds) (pair : Int × Int) :
    Collapses (pairs ++ [pair]) (seeds.insert pair.1 pair.2) := by
  have places := collapses.places
  have known := collapses.mem_iff pair.1
  rw [Seeds.insert_eq]
  refine ⟨?places, fun address => ?words⟩
  case places =>
    rw [List.map_append, List.eraseDups_append, ← places, List.map_singleton]
    by_cases again : pair.1 ∈ pairs.map (·.1)
    · rw [if_pos (known.mpr again), Seeds.map_replace]
      simp [List.removeAll, again]
    · rw [if_neg (mt known.mp again)]
      simp [List.removeAll, again, List.eraseDups_cons]
  case words =>
    rw [List.reverse_append, List.reverse_singleton, List.singleton_append, Seeds.lookup_cons,
      ← collapses.words]
    by_cases again : pair.1 ∈ seeds.map (·.1)
    · rw [if_pos again, Seeds.lookup_replace]
      simp only [again, and_true]
    · rw [if_neg again, List.lookup_append, Seeds.lookup_cons]
      by_cases here : address = pair.1
      · rw [here, Seeds.lookup_eq_none again]
        rfl
      · rw [if_neg here, if_neg here, List.lookup_nil, Option.or_none]

example : Seeds.ofList [(4, 1), (8, 2), (4, 3)] = [(4, 3), (8, 2)] := by decide

end Arm32.Memory
