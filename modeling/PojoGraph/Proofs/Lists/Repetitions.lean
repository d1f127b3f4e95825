import Mathlib.Data.List.Basic

/-!
# Lists with repetitions left out

Errors are reported once, documents are read once and values of enums listed once, each where it
occurs first. Whatever stands first in a list is kept and taken out of the rest, which is the
induction by which facts about such lists are proved.

## Main statements

* `eraseDups_induction` — induction along the elements that are kept.
* `pairwise_idxOf_eraseDups`, `nodup_eraseDups` — each element is kept once, in the order in which
  the elements occur first.
* `eraseDups_map` — different elements may be exchanged for others.
-/

namespace PojoGraph

section

variable {α β : Type} [BEq α] [LawfulBEq α] [BEq β] [LawfulBEq β]

omit [LawfulBEq α] in
/-- The first element is kept; then what is left of the rest without it is gone through. -/
@[elab_as_elim]
theorem eraseDups_induction {motive : List α → Prop} (nil : motive [])
    (cons : ∀ a rest, motive (rest.filter fun b => !b == a) → motive (a :: rest))
    (as : List α) : motive as := by
  induction hn : as.length using Nat.strongRecOn generalizing as with
  | _ n ih =>
    cases as with
    | nil => exact nil
    | cons a rest =>
      have hlength := List.length_filter_le (fun b => !b == a) rest
      rw [List.length_cons] at hn
      exact cons a rest (ih _ (by omega) _ rfl)

/-- Different elements stay different, so the same repetitions are left out. -/
theorem eraseDups_map {f : α → β} (hf : Function.Injective f) (as : List α) :
    (as.map f).eraseDups = as.eraseDups.map f := by
  induction as using eraseDups_induction with
  | nil => rfl
  | cons a rest ih =>
    have hfilter : (rest.map f).filter (fun b => !b == f a)
        = (rest.filter fun b => !b == a).map f := by
      rw [List.filter_map]
      congr 1
      refine List.filter_congr fun b _ => ?_
      simp [hf.eq_iff]
    rw [List.map_cons, List.eraseDups_cons, List.eraseDups_cons, List.map_cons, hfilter, ih]

/-- Where nothing is repeated, all is kept. -/
theorem eraseDups_of_nodup {as : List α} (h : as.Nodup) : as.eraseDups = as := by
  induction as with
  | nil => rfl
  | cons a rest ih =>
    rw [List.nodup_cons] at h
    have hrest : rest.filter (fun b => !b == a) = rest :=
      List.filter_eq_self.mpr fun b hb => by simpa using ne_of_mem_of_not_mem hb h.1
    rw [List.eraseDups_cons, hrest, ih h.2]

/-! ## Order -/

/-- What elements are taken to, if different ones are taken to different results, comes in the
order of the elements. -/
theorem idxOf_lt_of_filterMap {g : α → Option β}
    (hg : ∀ c d b, g c = some b → g d = some b → c = d) {a a' : α} {b b' : β} (ha : g a = some b)
    (ha' : g a' = some b') {as : List α}
    (h : (as.filterMap g).idxOf b < (as.filterMap g).idxOf b') : as.idxOf a < as.idxOf a' := by
  induction as with
  | nil => exact absurd h (Nat.lt_irrefl _)
  | cons c rest ih =>
    by_cases hc' : c = a'
    · subst hc'
      simp [ha'] at h
    by_cases hc : c = a
    · subst hc
      rw [List.idxOf_cons_self, List.idxOf_cons_ne _ hc']
      exact Nat.succ_pos _
    · rw [List.idxOf_cons_ne _ hc, List.idxOf_cons_ne _ hc']
      refine Nat.succ_lt_succ (ih ?_)
      cases hsome : g c with
      | none => rwa [List.filterMap_cons_none hsome] at h
      | some d =>
        have hd : d ≠ b := fun heq => hc (hg c a b (heq ▸ hsome) ha)
        have hd' : d ≠ b' := fun heq => hc' (hg c a' b' (heq ▸ hsome) ha')
        rw [List.filterMap_cons_some hsome, List.idxOf_cons_ne _ hd,
          List.idxOf_cons_ne _ hd'] at h
        exact Nat.lt_of_succ_lt_succ h

/-- **The elements come in the order in which they occur first.** -/
theorem pairwise_idxOf_eraseDups (as : List α) :
    as.eraseDups.Pairwise fun a b => as.idxOf a < as.idxOf b := by
  induction as using eraseDups_induction with
  | nil => exact .nil
  | cons a rest ih =>
    rw [List.eraseDups_cons, List.pairwise_cons]
    have hne : ∀ b ∈ (rest.filter fun b => !b == a).eraseDups, a ≠ b := by
      intro b hb
      rw [List.mem_eraseDups, List.mem_filter] at hb
      exact fun heq => by simp [heq] at hb
    constructor
    · intro b hb
      rw [List.idxOf_cons_self, List.idxOf_cons_ne _ (hne b hb)]
      exact Nat.succ_pos _
    · refine ih.imp_of_mem fun {b c} hb hc hlt => ?_
      rw [List.idxOf_cons_ne _ (hne b hb), List.idxOf_cons_ne _ (hne c hc)]
      -- What comes first in the rest without `a` comes first in the rest: taking elements out is
      -- a case of exchanging some of them.
      have hguard : ∀ d, a ≠ d → Option.guard (fun b => !b == a) d = some d := fun d hd =>
        Option.guard_eq_some_iff.mpr ⟨rfl, by simpa using Ne.symm hd⟩
      refine Nat.succ_lt_succ (idxOf_lt_of_filterMap (g := Option.guard fun b => !b == a)
        (fun c d b hc hd => ?_) (hguard b (hne b hb)) (hguard c (hne c hc)) ?_)
      · rw [Option.guard_eq_some_iff] at hc hd
        exact hc.1.trans hd.1.symm
      · rwa [List.filterMap_eq_filter]

/-- No element is kept twice. -/
theorem nodup_eraseDups (as : List α) : as.eraseDups.Nodup := by
  refine (pairwise_idxOf_eraseDups as).imp fun {a b} hlt => ?_
  rintro rfl
  exact Nat.lt_irrefl _ hlt

end

end PojoGraph
