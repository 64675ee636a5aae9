import BencodePlan.Schema.Lower
import Mathlib.Data.Finset.Card
import Mathlib.Dynamics.PeriodicPts.Lemmas
/-!
# Chains of declarations

A declared type leads to its body, that one to its own if it is declared too, and so on.  `next` is one step of such a
chain and `underlying` walks it for more steps than the table has places.  The walk arrives at the end of the chain
unless the chain runs into a circle (`bodyOf_underlying`), and a circle is found from each of its members
(`cycleFrom_isSome`).
-/
namespace BencodePlan
namespace TypeTable

open Function

def bodyOf (t : TypeTable) (id : TypeId) : Option TypeId := (t.declared? id).bind Declared.body

def next (t : TypeTable) (id : TypeId) : TypeId := (t.bodyOf id).getD id

theorem next_of_some {t : TypeTable} {id body : TypeId} (h : t.bodyOf id = some body) : t.next id = body := by
  simp only [next, h, Option.getD_some]

theorem next_of_none {t : TypeTable} {id : TypeId} (h : t.bodyOf id = none) : t.next id = id := by
  simp only [next, h, Option.getD_none]

theorem declared?_isSome_of_bodyOf {t : TypeTable} {id body : TypeId} (h : t.bodyOf id = some body) :
    (t.declared? id).isSome = true := by
  unfold bodyOf at h
  cases hd : t.declared? id with
  | none => rw [hd] at h; cases h
  | some d => rfl

theorem iterate_next_of_none {t : TypeTable} {id : TypeId} (h : t.bodyOf id = none) : ∀ n : Nat, t.next^[n] id = id
  | 0 => rfl
  | n + 1 => by rw [iterate_succ_apply, next_of_none h, iterate_next_of_none h n]

theorem follow_eq_iterate (t : TypeTable) : ∀ (n : Nat) (id : TypeId), t.follow n id = t.next^[n] id
  | 0, _ => rfl
  | n + 1, id => by
    rw [follow, iterate_succ_apply]
    cases h : t.bodyOf id with
    | none =>
      rw [next_of_none h, iterate_next_of_none h]
      unfold bodyOf at h
      rw [h]
    | some body =>
      rw [next_of_some h, ← follow_eq_iterate t n body]
      unfold bodyOf at h
      rw [h]

theorem underlying_eq_iterate (t : TypeTable) (id : TypeId) : t.underlying id = t.next^[t.size + 1] id :=
  follow_eq_iterate t _ id

theorem underlying_of_none {t : TypeTable} {id : TypeId} (h : t.bodyOf id = none) : t.underlying id = id := by
  rw [underlying_eq_iterate, iterate_next_of_none h]

/-! ## Circles -/

/-- **A circle is found from each of its members**: after `i` of the `m` steps around it the search goes on, and at the
last step it is back. -/
theorem cycleFrom_isSome_from {t : TypeTable} {x : TypeId} (hbody : ∀ i, (t.bodyOf (t.next^[i] x)).isSome = true)
    (hrange : ∀ id body, t.bodyOf id = some body → body < t.size) :
    ∀ d i : Nat, i + d + 1 = minimalPeriod t.next x →
      (Lower.cycleFrom t x ((List.range (i + 1)).map (t.next^[·] x)).reverse (t.next^[i] x)).isSome = true := by
  intro d
  induction d with
  | zero =>
    intro i hi
    obtain ⟨body, hb⟩ := Option.isSome_iff_exists.1 (hbody i)
    have hback : body = x := by
      have h := iterate_minimalPeriod (f := t.next) (x := x)
      rw [← hi, Nat.add_zero, iterate_succ_apply', next_of_some hb] at h
      exact h
    subst hback
    obtain ⟨b₀, hb₀⟩ := Option.isSome_iff_exists.1 (hbody 0)
    have hdecl : (t.declared? body).isNone = false := Option.isNone_eq_false_iff.2 (declared?_isSome_of_bodyOf hb₀)
    rw [Lower.cycleFrom, ← bodyOf, hb]
    simp only [hdecl, if_true, Bool.false_eq_true, if_false, Option.isSome_some]
  | succ d ih =>
    intro i hi
    obtain ⟨body, hb⟩ := Option.isSome_iff_exists.1 (hbody i)
    have hbody' : body = t.next^[i + 1] x := by rw [iterate_succ_apply', next_of_some hb]
    have hinj := iterate_injOn_Iio_minimalPeriod (f := t.next) (x := x)
    -- the first `m` members of the circle are different
    have hnew : ∀ j ≤ i, t.next^[j] x ≠ body := by
      intro j hj heq
      rw [hbody'] at heq
      have := hinj (Set.mem_Iio.2 (by omega)) (Set.mem_Iio.2 (by omega)) heq
      omega
    obtain ⟨b₁, hb₁⟩ := Option.isSome_iff_exists.1 (hbody (i + 1))
    rw [← hbody'] at hb₁
    have hdecl : (t.declared? body).isNone = false := Option.isNone_eq_false_iff.2 (declared?_isSome_of_bodyOf hb₁)
    have hx : body ≠ x := Ne.symm (hnew 0 (Nat.zero_le i))
    have hmem : body < t.size ∧ body ∉ ((List.range (i + 1)).map (t.next^[·] x)).reverse := by
      refine ⟨hrange _ _ hb, fun hm => ?_⟩
      obtain ⟨j, hj, heq⟩ := List.mem_map.1 (List.mem_reverse.1 hm)
      exact hnew j (by have := List.mem_range.1 hj; omega) heq
    have hstep : body :: ((List.range (i + 1)).map (t.next^[·] x)).reverse =
        ((List.range (i + 1 + 1)).map (t.next^[·] x)).reverse := by
      rw [List.range_succ (n := i + 1), List.map_append, List.reverse_append, hbody']
      rfl
    rw [Lower.cycleFrom, ← bodyOf, hb]
    simp only [hdecl, Bool.false_eq_true, if_false]
    rw [if_neg hx, dif_pos hmem, hstep, hbody']
    exact ih (i + 1) (by omega)

theorem cycleFrom_isSome {t : TypeTable} {x : TypeId} (hbody : ∀ i, (t.bodyOf (t.next^[i] x)).isSome = true)
    (hrange : ∀ id body, t.bodyOf id = some body → body < t.size) (hx : x ∈ periodicPts t.next) :
    (Lower.cycleFrom t x [x] x).isSome = true := by
  have hpos := minimalPeriod_pos_of_mem_periodicPts hx
  have h := cycleFrom_isSome_from hbody hrange (minimalPeriod t.next x - 1) 0 (by omega)
  exact h

/-! ## Ends -/

theorem bodyOf_iterate_of_none {t : TypeTable} {id : TypeId} {n m : Nat} (h : t.bodyOf (t.next^[n] id) = none)
    (hm : n ≤ m) : t.bodyOf (t.next^[m] id) = none := by
  obtain ⟨k, rfl⟩ := Nat.exists_eq_add_of_le' hm
  rw [iterate_add_apply, iterate_next_of_none h k]
  exact h

/-- A chain that stays inside the table is somewhere twice before it has made more steps than there are places. -/
theorem exists_iterate_next_eq {t : TypeTable} {id : TypeId} (hlt : ∀ i ≤ t.size, t.next^[i] id < t.size) :
    ∃ i j : Nat, i < j ∧ j ≤ t.size ∧ t.next^[i] id = t.next^[j] id := by
  have hcard : (Finset.range t.size).card < (Finset.range (t.size + 1)).card := by
    simp only [Finset.card_range, Nat.lt_succ_self]
  obtain ⟨i, hi, j, hj, hne, heq⟩ := Finset.exists_ne_map_eq_of_card_lt_of_maps_to hcard
    (f := fun i => t.next^[i] id)
    (fun i hi => Finset.mem_coe.2 (Finset.mem_range.2 (hlt i (by
      have := Finset.mem_range.1 (Finset.mem_coe.1 hi); omega))))
  have hi' := Finset.mem_range.1 hi
  have hj' := Finset.mem_range.1 hj
  rcases Nat.lt_or_ge i j with hij | hji
  · exact ⟨i, j, hij, by omega, heq⟩
  · exact ⟨j, i, by omega, by omega, heq.symm⟩

/-- **A walk along a chain arrives at its end**, when no chain runs in a circle. -/
theorem bodyOf_underlying {t : TypeTable} (hrange : ∀ id body, t.bodyOf id = some body → body < t.size)
    (hcycle : ∀ id, (t.bodyOf id).isSome = true → Lower.cycleFrom t id [id] id = none) (id : TypeId) :
    t.bodyOf (t.underlying id) = none := by
  rw [underlying_eq_iterate]
  by_contra hend
  have hsome : ∀ i ≤ t.size + 1, (t.bodyOf (t.next^[i] id)).isSome = true := fun i hi =>
    Option.isSome_iff_ne_none.2 fun h => hend (bodyOf_iterate_of_none h hi)
  -- every place of the chain has a body, so every place after the first is in the table
  have hlt : ∀ i ≤ t.size, t.next^[i] (t.next id) < t.size := by
    intro i hi
    obtain ⟨body, hb⟩ := Option.isSome_iff_exists.1 (hsome i (by omega))
    rw [← iterate_succ_apply, iterate_succ_apply', next_of_some hb]
    exact hrange _ _ hb
  obtain ⟨i, j, hij, hj, heq⟩ := exists_iterate_next_eq hlt
  have hper : IsPeriodicPt t.next (j - i) (t.next^[i] (t.next id)) := by
    unfold IsPeriodicPt IsFixedPt
    rw [← iterate_add_apply, Nat.sub_add_cancel (by omega)]
    exact heq.symm
  have hbody : ∀ k, (t.bodyOf (t.next^[k] (t.next^[i] (t.next id)))).isSome = true := by
    intro k
    have hk : k % (j - i) < j - i := Nat.mod_lt _ (by omega)
    rw [← hper.iterate_mod_apply k, ← iterate_add_apply, ← iterate_succ_apply]
    exact hsome _ (by omega)
  have hfound := cycleFrom_isSome hbody hrange (mk_mem_periodicPts (by omega) hper)
  have hnone := hcycle (t.next^[i] (t.next id)) (hbody 0)
  rw [hnone] at hfound
  cases hfound

end TypeTable
end BencodePlan
