import Flowchart.Text.Basic
import Mathlib.Data.List.Chain
import Mathlib.Data.List.Nodup
import Mathlib.Logic.Function.Basic
import Mathlib.Logic.Relation

/-!
# Depth-first sweeps

A sweep starts from each node of a list in turn and takes every edge that it has not taken, going as deep as
it can before it turns back. It records the edges that close a cycle, which are those to a node of the active
path, and goes on behind them as if they were not there. So if the first recorded edge is taken out of the
graph, the sweep stays the same but for this record (`Sweep.without_first`).

Every recorded edge is needed: the active path leads back along it over edges that are never recorded
(`Sweep.reaches_back`). A sweep without records shows that there is no cycle (`Sweep.accessible`).
-/

namespace Flowchart

open Function Relation

/-- The sweep with the active path `path`, innermost node first, which has yet to start from `starts` and to
take the edges in `pending`, records the edges `es`. -/
inductive Sweep :
    (pending : Text → List Text) → (path starts : List Text) → (es : List (Text × Text)) → Prop
  | done {p} : Sweep p [] [] []
  | start {p s ss es} : Sweep p [s] ss es → Sweep p [] (s :: ss) es
  | leave {p u up ss es} : p u = [] → Sweep p up ss es → Sweep p (u :: up) ss es
  | close {p u v vs up ss es} : p u = v :: vs → v ∈ u :: up →
      Sweep (update p u vs) (u :: up) ss es → Sweep p (u :: up) ss ((u, v) :: es)
  | enter {p u v vs up ss es} : p u = v :: vs → v ∉ u :: up →
      Sweep (update p u vs) (v :: u :: up) ss es → Sweep p (u :: up) ss es

section Taking

variable {p : Text → List Text} {u v : Text} {vs : List Text} (hp : ∀ x, (p x).Nodup)
  (hu : p u = v :: vs)

include hp hu

/-- Taking the edge from `u` to `v` leaves all other edges. -/
theorem mem_update_iff {x w : Text} : w ∈ update p u vs x ↔ w ∈ p x ∧ (x, w) ≠ (u, v) := by
  have hn := hu ▸ hp u
  rw [List.nodup_cons] at hn
  by_cases hx : x = u
  · subst hx
    rw [update_self, hu, List.mem_cons]
    constructor
    · intro hw
      refine ⟨Or.inr hw, ?_⟩
      rintro ⟨⟩
      exact hn.1 hw
    · rintro ⟨rfl | hw, hne⟩
      · exact absurd rfl hne
      · exact hw
  · rw [update_of_ne hx]
    exact ⟨fun hw => ⟨hw, fun h => hx (Prod.mk.inj h).1⟩, fun h => h.1⟩

theorem nodup_update (x : Text) : (update p u vs x).Nodup := by
  have hn := hu ▸ hp u
  rw [List.nodup_cons] at hn
  by_cases hx : x = u
  · subst hx
    rw [update_self]
    exact hn.2
  · rw [update_of_ne hx]
    exact hp x

end Taking

namespace Sweep

variable {p : Text → List Text} {path ss : List Text} {es : List (Text × Text)}

/-- A sweep records only edges that it has yet to take. -/
theorem mem_pending (h : Sweep p path ss es) (hp : ∀ x, (p x).Nodup) : ∀ e ∈ es, e.2 ∈ p e.1 := by
  induction h with
  | done => exact fun e he => absurd he List.not_mem_nil
  | start _ ih => exact ih hp
  | leave _ _ ih => exact ih hp
  | close hu _ _ ih =>
    intro e he
    rcases List.mem_cons.1 he with rfl | he
    · exact hu ▸ List.mem_cons_self
    · exact ((mem_update_iff hp hu).1 (ih (nodup_update hp hu) e he)).1
  | enter hu _ _ ih => exact fun e he => ((mem_update_iff hp hu).1 (ih (nodup_update hp hu) e he)).1

theorem nodup (h : Sweep p path ss es) (hp : ∀ x, (p x).Nodup) : es.Nodup := by
  induction h with
  | done => exact List.nodup_nil
  | start _ ih => exact ih hp
  | leave _ _ ih => exact ih hp
  | close hu _ hs ih =>
    have hp' := nodup_update hp hu
    exact List.nodup_cons.2 ⟨fun he => ((mem_update_iff hp hu).1 (hs.mem_pending hp' _ he)).2 rfl, ih hp'⟩
  | enter hu _ _ ih => exact ih (nodup_update hp hu)

/-- Without the edge that it records first, the sweep records the others. -/
theorem without_first {a b : Text} (h : Sweep p path ss ((a, b) :: es)) (hp : ∀ x, (p x).Nodup) :
    Sweep (update p a ((p a).erase b)) path ss es := by
  generalize hes : (a, b) :: es = fs at h
  induction h with
  | done => cases hes
  | start _ ih => exact .start (ih hp hes)
  | @leave p u up ss fs hu _ ih =>
    refine .leave ?_ (ih hp hes)
    by_cases ha : u = a
    · subst ha
      rw [update_self, hu, List.erase_nil]
    · rw [update_of_ne ha, hu]
  | close hu hv hs =>
    cases hes
    rw [hu, List.erase_cons_head]
    exact hs
  | @enter p u v vs up ss fs hu hv hs ih =>
    have hp' := nodup_update hp hu
    -- the recorded edge is taken later than this one, so erasing it leaves this one the next to take
    have hb : b ∈ update p u vs a := hs.mem_pending hp' _ (hes ▸ List.mem_cons_self)
    have hne := ((mem_update_iff hp hu).1 hb).2
    have hs' := ih hp' hes
    by_cases ha : a = u
    · subst ha
      have hbv : v ≠ b := fun h => hne (by rw [h])
      rw [update_self, update_idem] at hs'
      rw [hu, List.erase_cons_tail (by simpa using hbv)]
      apply Sweep.enter (update_self _ _ _) hv
      rwa [update_idem]
    · have hu' : update p a ((p a).erase b) u = v :: vs := by rw [update_of_ne (Ne.symm ha), hu]
      rw [update_of_ne ha, update_comm (Ne.symm ha)] at hs'
      exact .enter hu' hv hs'

/-! ## Recorded edges -/

theorem reaches_of_isChain {R : Text → Text → Prop} {u v : Text} {up : List Text}
    (h : (u :: up).IsChain fun a b => R b a) (hv : v ∈ u :: up) : ReflTransGen R v u := by
  induction up generalizing u with
  | nil =>
    obtain rfl := List.mem_singleton.1 hv
    exact .refl
  | cons w up ih =>
    rw [List.isChain_cons_cons] at h
    rcases List.mem_cons.1 hv with rfl | hv
    · exact .refl
    · exact (ih h.2 hv).tail h.1

/-- If `R` holds along the active path and along all edges that are not recorded, it leads from the target of
each recorded edge to its source. -/
theorem reaches_back (h : Sweep p path ss es) (hp : ∀ x, (p x).Nodup) {R : Text → Text → Prop}
    (hR : ∀ x w, w ∈ p x → (x, w) ∉ es → R x w) (hpath : path.IsChain fun a b => R b a) :
    ∀ e ∈ es, ReflTransGen R e.2 e.1 := by
  induction h with
  | done => exact fun e he => absurd he List.not_mem_nil
  | start _ ih => exact ih hp hR (List.isChain_singleton _)
  | leave _ _ ih => exact ih hp hR hpath.tail
  | @close p u v vs up ss es hu hv _ ih =>
    have hR' : ∀ x w, w ∈ update p u vs x → (x, w) ∉ es → R x w := by
      intro x w hw he
      obtain ⟨hw, hne⟩ := (mem_update_iff hp hu).1 hw
      exact hR x w hw fun h => (List.mem_cons.1 h).elim hne he
    intro e he
    rcases List.mem_cons.1 he with rfl | he
    · exact reaches_of_isChain hpath hv
    · exact ih (nodup_update hp hu) hR' hpath e he
  | @enter p u v vs up ss es hu hv hs ih =>
    have hp' := nodup_update hp hu
    apply ih hp' (fun x w hw => hR x w ((mem_update_iff hp hu).1 hw).1)
    refine List.IsChain.cons_cons (hR u v (hu ▸ List.mem_cons_self) ?_) hpath
    intro he
    exact ((mem_update_iff hp hu).1 (hs.mem_pending hp' _ he)).2 rfl

/-! ## Sweeps without records -/

theorem pair_infix_cons {w x u : Text} {up : List Text} (h : [w, x] <:+: u :: up) :
    x ∈ up ∧ (w = u ∨ [w, x] <:+: up) := by
  rcases List.infix_cons_iff.1 h with h | h
  · obtain ⟨rfl, hx⟩ := List.cons_prefix_cons.1 h
    exact ⟨hx.subset List.mem_cons_self, Or.inl rfl⟩
  · exact ⟨h.subset (by simp), Or.inr h⟩

/-- If `R` holds only along the active path, to accessible nodes and along edges that the sweep has yet to
take, and the sweep records nothing, all its nodes are accessible. -/
theorem accessible (h : Sweep p path ss es) (hes : es = []) (hp : ∀ x, (p x).Nodup) (hpath : path.Nodup)
    {R : Text → Text → Prop}
    (hR : ∀ x w, R x w → w ∈ p x ∨ Acc (flip R) w ∨ [w, x] <:+: path) :
    ∀ x ∈ path ++ ss, Acc (flip R) x := by
  induction h with
  | done => exact fun x hx => absurd hx List.not_mem_nil
  | @start p s ss es _ ih =>
    refine ih hes hp (List.nodup_singleton s) fun x w hxw => ?_
    rcases hR x w hxw with h | h | h
    · exact Or.inl h
    · exact Or.inr (Or.inl h)
    · exact absurd (List.infix_nil.1 h) (List.cons_ne_nil _ _)
  | @leave p u up ss es hu _ ih =>
    rw [List.nodup_cons] at hpath
    -- no edge from the innermost node is left, and none goes along the path
    have hacc : Acc (flip R) u := by
      constructor
      intro w hw
      rcases hR u w hw with h | h | h
      · rw [hu] at h
        cases h
      · exact h
      · exact absurd (pair_infix_cons h).1 hpath.1
    have hrest := ih hes hp hpath.2 fun x w hxw => by
      rcases hR x w hxw with h | h | h
      · exact Or.inl h
      · exact Or.inr (Or.inl h)
      · rcases (pair_infix_cons h).2 with rfl | h
        · exact Or.inr (Or.inl hacc)
        · exact Or.inr (Or.inr h)
    intro x hx
    rcases List.mem_cons.1 hx with rfl | hx
    · exact hacc
    · exact hrest x hx
  | close => cases hes
  | @enter p u v vs up ss es hu hv _ ih =>
    have hrest := ih hes (nodup_update hp hu) (List.nodup_cons.2 ⟨hv, hpath⟩) fun x w hxw => by
      by_cases he : (x, w) = (u, v)
      · obtain ⟨rfl, rfl⟩ := Prod.mk.inj he
        exact Or.inr (Or.inr (List.prefix_append [w, x] up).isInfix)
      · rcases hR x w hxw with h | h | h
        · exact Or.inl ((mem_update_iff hp hu).2 ⟨h, he⟩)
        · exact Or.inr (Or.inl h)
        · exact Or.inr (Or.inr (h.trans (List.suffix_cons v _).isInfix))
    exact fun x hx => hrest x (List.mem_cons_of_mem v hx)

end Sweep

end Flowchart
