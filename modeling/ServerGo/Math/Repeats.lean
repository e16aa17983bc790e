/-
# Visits and returns

A walk over places, given as the list of places it is at. Dropping immediate
repetitions leaves one entry for each visit, and no place is visited twice
exactly when the walk never returns to a place it has left. A walk that repeats
nothing is known by its places and the order of each two of them.
-/

import Mathlib.Data.List.Induction
import Mathlib.Data.List.Nodup

namespace ServerGo.Math

universe u

variable {α : Type u}

/-- A walk does not come back to a place after having been elsewhere. -/
def NeverReturns (walk : List α) : Prop :=
  ∀ first between last, first ≤ between → between ≤ last → last < walk.length →
    walk[first]? = walk[last]? → walk[between]? = walk[last]?

/-- One more step returns nowhere unless it leads to a place that was left. -/
theorem neverReturns_concat {walk : List α} {place : α} :
    NeverReturns (walk ++ [place]) ↔
      NeverReturns walk ∧ (place ∈ walk → walk.getLast? = some place) := by
  have hinside : ∀ position < walk.length, (walk ++ [place])[position]? = walk[position]? :=
    fun _ hposition => List.getElem?_append_left hposition
  have hend : (walk ++ [place])[walk.length]? = some place := by simp
  constructor
  · intro hwalk
    constructor
    · intro first between last hfirst hbetween hlast hsame
      have hlonger := hwalk first between last hfirst hbetween (by simp; omega)
      rw [hinside first (by omega), hinside between (by omega), hinside last hlast] at hlonger
      exact hlonger hsame
    · intro hmem
      obtain ⟨first, hplace⟩ := List.getElem?_of_mem hmem
      have hfirst : first < walk.length := (List.getElem?_eq_some_iff.mp hplace).1
      have hbefore := hwalk first (walk.length - 1) walk.length (by omega) (by omega) (by simp)
      rw [hinside first hfirst, hinside (walk.length - 1) (by omega), hend] at hbefore
      rw [List.getLast?_eq_getElem?]
      exact hbefore hplace
  · rintro ⟨hwalk, hlast⟩ first between last hfirst hbetween hlength hsame
    rw [List.length_append, List.length_singleton] at hlength
    rcases Nat.lt_succ_iff_lt_or_eq.mp hlength with hlt | rfl
    · rw [hinside first (by omega), hinside last hlt] at hsame
      rw [hinside between (by omega), hinside last hlt]
      exact hwalk first between last hfirst hbetween hlt hsame
    · rcases Nat.lt_or_eq_of_le hbetween with hlt | rfl
      · rw [hinside first (by omega), hend] at hsame
        have hplace := hlast (List.mem_of_getElem? hsame)
        rw [List.getLast?_eq_getElem?] at hplace
        rw [hinside between hlt, hend, ← hplace]
        exact hwalk first between (walk.length - 1) hfirst (by omega) (by omega)
          (hsame.trans hplace.symm)
      · rfl

/-- A list without repetition is determined by its members and their order. -/
theorem eq_of_forall_pair_sublist {first second : List α} (hnodup : second.Nodup)
    (hperm : first.Perm second)
    (hpairs : ∀ a b, [a, b].Sublist first → [a, b].Sublist second) : first = second := by
  induction first generalizing second with
  | nil => exact hperm.nil_eq
  | cons head later ih =>
      cases second with
      | nil => exact absurd hperm.symm.nil_eq (by simp)
      | cons other rest =>
          obtain ⟨hother, hrest⟩ := List.nodup_cons.mp hnodup
          have hfirst : ∀ {a b}, [a, b].Sublist (other :: rest) → a ≠ other →
              [a, b].Sublist rest := by
            intro a b hpair hne
            rcases List.sublist_cons_iff.mp hpair with hinner | ⟨_, hsame, -⟩
            · exact hinner
            · exact absurd (List.cons.inj hsame).1 hne
          -- the other list cannot start with anything that comes later in this one
          have hhead : head = other := by
            by_contra hne
            have hmem : other ∈ later :=
              (List.mem_cons.mp (hperm.mem_iff.mpr List.mem_cons_self)).resolve_left (Ne.symm hne)
            have hpair := hpairs head other ((List.singleton_sublist.mpr hmem).cons_cons head)
            exact hother ((hfirst hpair hne).subset (by simp))
          subst hhead
          refine congrArg (head :: ·) (ih hrest ((List.perm_cons head).mp hperm) ?_)
          intro a b hpair
          have hne : a ≠ head := by
            rintro rfl
            exact (hperm.nodup_iff.mpr hnodup).notMem (hpair.subset (by simp))
          exact hfirst (hpairs a b (hpair.cons head)) hne

variable [DecidableEq α]

/-- The places of a walk, one entry for each visit. -/
def visits (walk : List α) : List α :=
  walk.foldl (fun visited place =>
    if visited.getLast? = some place then visited else visited ++ [place]) []

@[simp]
theorem visits_concat (walk : List α) (place : α) :
    visits (walk ++ [place]) =
      if (visits walk).getLast? = some place then visits walk else visits walk ++ [place] := by
  rw [visits, List.foldl_append]
  rfl

/-- A walk ends where its last visit is. -/
theorem getLast?_visits (walk : List α) : (visits walk).getLast? = walk.getLast? := by
  induction walk using List.reverseRecOn with
  | nil => rfl
  | append_singleton walk place ih =>
      rw [visits_concat]
      split
      next hlast => simp [hlast]
      next => simp

theorem mem_visits {walk : List α} {place : α} : place ∈ visits walk ↔ place ∈ walk := by
  induction walk using List.reverseRecOn with
  | nil => rfl
  | append_singleton walk last ih =>
      rw [visits_concat, List.mem_append, List.mem_singleton, ← ih]
      split
      next hlast =>
          have hmem : last ∈ visits walk := List.mem_of_getLast? hlast
          exact ⟨Or.inl, fun hplace => hplace.elim id fun hsame => hsame ▸ hmem⟩
      next => rw [List.mem_append, List.mem_singleton]

/-- **Each place is visited once exactly when the walk never returns.** -/
theorem nodup_visits_iff (walk : List α) : (visits walk).Nodup ↔ NeverReturns walk := by
  induction walk using List.reverseRecOn with
  | nil =>
      refine ⟨fun _ _ _ _ _ _ hlast => absurd hlast (Nat.not_lt_zero _), fun _ => List.nodup_nil⟩
  | append_singleton walk place ih =>
      rw [neverReturns_concat, visits_concat, ← ih, getLast?_visits]
      split
      next hlast => simp [hlast]
      next hlast =>
          rw [List.nodup_append]
          refine and_congr_right fun _ => ⟨fun hdisjoint hmem => ?_, fun hmem => ?_⟩
          · exact absurd rfl (hdisjoint.2 place (mem_visits.mpr hmem) place (by simp))
          · refine ⟨by simp, fun earlier hearlier last hplace hsame => hlast (hmem ?_)⟩
            rw [← List.mem_singleton.mp hplace, ← hsame]
            exact mem_visits.mp hearlier

end ServerGo.Math
