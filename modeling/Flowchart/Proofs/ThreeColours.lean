import Flowchart.Proofs.BackEdges
import Flowchart.Proofs.RecursiveVisits

/-!
# Searches in three colours

A depth-first search paints a node grey when it meets it and black when it has examined the edges from it. An edge
to a grey node closes a cycle. The back edges, found by removing an edge and searching anew, are the edges to grey
nodes that a single such search examines (`WellFormed.backEdges_eq_closing`).

A sweep goes along the same path as the search, apart from turning to black nodes and back at once. So from any
point on it records the edges that the search finds from there on (`sweep_examineEach`).
-/

namespace Flowchart.Digraph

open Function

variable {g : Digraph}

/-! ## The search -/

/-- The colour of a node in a depth-first search: white until the node is met, grey while it is on the current
path, black thereafter. -/
inductive Colour where
  | white
  | grey
  | black
  deriving DecidableEq, Repr

/-- How far a depth-first search has come: the nodes that it has met, and the edges it has examined that led to grey
nodes. -/
structure Tour where
  met : List Text := []
  closing : List (Text × Text) := []

/-- The colour of `v` when the search is at the end of `path`. -/
def Tour.colour (t : Tour) (path : List Text) (v : Text) : Colour :=
  if v ∈ path then .grey else if v ∈ t.met then .black else .white

/-- Examines the edges from `u`, which is met at the end of the path `up`, to some nodes in turn. From a white node
the search goes on before it examines the next edge from `u`. The edges to grey nodes are those found on the way. -/
def examineEach (g : Digraph) (u : Text) (up met vs : List Text) : {t : Tour // met ⊆ t.met} :=
  match vs with
  | [] => ⟨⟨met, []⟩, List.Subset.refl _⟩
  | v :: vs =>
    if v ∈ u :: up then
      let ⟨rest, hrest⟩ := g.examineEach u up met vs
      ⟨⟨rest.met, (u, v) :: rest.closing⟩, hrest⟩
    else if _h : v ∈ met then g.examineEach u up met vs
    else
      let ⟨inner, hinner⟩ := g.examineEach v (u :: up) (v :: met) (g.next v)
      let ⟨rest, hrest⟩ := g.examineEach u up inner.met vs
      ⟨⟨rest.met, inner.closing ++ rest.closing⟩, fun _ hx => hrest (hinner (List.mem_cons_of_mem v hx))⟩
termination_by g.successors.countOutside met + vs.length
decreasing_by
  · simp only [List.length_cons]
    omega
  · simp only [List.length_cons]
    omega
  · have : (g.next v).length + _ ≤ _ := g.successors.countOutside_visit _h
    simp only [List.length_cons]
    omega
  · have := g.successors.countOutside_anti fun _ hx => hinner (List.mem_cons_of_mem v hx)
    simp only [List.length_cons]
    omega

/-- Searches from the white node `u`, met at the end of the path `up`. -/
def searchBelow (g : Digraph) (up : List Text) (t : Tour) (u : Text) : Tour :=
  let found := (g.examineEach u up (u :: t.met) (g.next u)).1
  ⟨found.met, t.closing ++ found.closing⟩

/-- Examines the edge to `v` from `u`, which is at the end of the path `up`. -/
def examine (g : Digraph) (u : Text) (up : List Text) (t : Tour) (v : Text) : Tour :=
  match t.colour (u :: up) v with
  | .white => g.searchBelow (u :: up) t v
  | .grey => { t with closing := t.closing ++ [(u, v)] }
  | .black => t

/-- Starts from `s` if it is white. -/
def searchNew (g : Digraph) (t : Tour) (s : Text) : Tour :=
  match t.colour [] s with
  | .white => g.searchBelow [] t s
  | _ => t

theorem foldl_examine (g : Digraph) (u : Text) (up : List Text) (t : Tour) (vs : List Text) :
    vs.foldl (g.examine u up) t =
      ⟨(g.examineEach u up t.met vs).1.met, t.closing ++ (g.examineEach u up t.met vs).1.closing⟩ := by
  induction vs generalizing t with
  | nil => rw [List.foldl_nil, examineEach, List.append_nil]
  | cons v vs ih =>
    rw [List.foldl_cons, ih, examineEach]
    unfold examine Tour.colour
    by_cases hgrey : v ∈ u :: up
    · rw [if_pos hgrey, if_pos hgrey, List.append_assoc]
      rfl
    · rw [if_neg hgrey, if_neg hgrey]
      by_cases hblack : v ∈ t.met
      · rw [if_pos hblack, dif_pos hblack]
      · rw [if_neg hblack, dif_neg hblack]
        unfold searchBelow
        dsimp only
        rw [List.append_assoc]

theorem searchBelow_eq (g : Digraph) (up : List Text) (t : Tour) (u : Text) :
    g.searchBelow up t u = (g.next u).foldl (g.examine u up) { t with met := u :: t.met } :=
  (foldl_examine g u up { t with met := u :: t.met } (g.next u)).symm

/-! ## The search and the sweep -/

section Sweeps

variable {p : Text → List Text} {u : Text} {up met vs ss : List Text} {es : List (Text × Text)}

/-- Where the edges from `u` to `vs` are still to be examined, the sweep records what the search finds there, and
then what it records once they have been examined. -/
theorem sweep_examineEach (hp : Progress g.next met p (u :: up)) (hn : (u :: up).Nodup) (hu : p u = vs)
    (hrest : ∀ q, Progress g.next (g.examineEach u up met vs).1.met q up → (∀ x ∈ up, q x = p x) →
      Sweep q up ss es) :
    Sweep p (u :: up) ss ((g.examineEach u up met vs).1.closing ++ es) := by
  fun_induction g.examineEach u up met vs generalizing p es with
  | case1 u up met => exact .leave hu (hrest p (hp.leave hu) fun _ _ => rfl)
  | case2 u up met v vs hgrey rest _ heq ih =>
    rw [heq] at ih
    have hp' := hp.take hu List.mem_cons_self (hp.path hgrey)
    refine .close hu hgrey (ih hp' hn (update_self _ _ _) fun q hq hqp => hrest q hq fun x hx => ?_)
    rw [hqp x hx, update_of_ne (ne_of_mem_of_not_mem hx hn.notMem)]
  | case3 u up met v vs hgrey hblack ih =>
    have hp' := hp.take hu List.mem_cons_self hblack
    have hleft := (hp'.settled v hblack).resolve_left hgrey
    refine .enter hu hgrey (.leave hleft ?_)
    refine ih hp' hn (update_self _ _ _) fun q hq hqp => hrest q hq fun x hx => ?_
    rw [hqp x hx, update_of_ne (ne_of_mem_of_not_mem hx hn.notMem)]
  | case4 u up met v vs hgrey hwhite inner _ heq rest _ heq' ih ih' =>
    rw [heq] at ih
    rw [heq'] at ih'
    have hp' := hp.enter hu List.mem_cons_self
    have hv : update p u vs v = g.next v := by
      rw [update_of_ne (ne_of_mem_of_not_mem List.mem_cons_self hgrey).symm, hp.fresh v hwhite]
    rw [List.append_assoc]
    refine .enter hu hgrey (ih hp' (List.nodup_cons.2 ⟨hgrey, hn⟩) hv fun q hq hqp => ?_)
    refine ih' hq hn ?_ fun q' hq' hqq' => hrest q' hq' fun x hx => ?_
    · rw [hqp u List.mem_cons_self, update_self]
    · rw [hqq' x hx, hqp x (List.mem_cons_of_mem u hx), update_of_ne (ne_of_mem_of_not_mem hx hn.notMem)]

/-- Between two starts, the sweep records what the search finds from the starts that are left. -/
theorem exists_sweep_searchNew (g : Digraph) (t : Tour) (ss : List Text) :
    ∃ es, (ss.foldl g.searchNew t).closing = t.closing ++ es ∧
      ∀ p, Progress g.next t.met p [] → Sweep p [] ss es := by
  induction ss generalizing t with
  | nil => exact ⟨[], (List.append_nil _).symm, fun _ _ => .done⟩
  | cons s ss ih =>
    obtain ⟨es, hes, hsweep⟩ := ih (g.searchNew t s)
    rw [List.foldl_cons, hes]
    by_cases hs : s ∈ t.met
    · have hskip : g.searchNew t s = t := by simp [searchNew, Tour.colour, hs]
      rw [hskip] at hsweep ⊢
      refine ⟨es, rfl, fun p hp => ?_⟩
      have hleft := (hp.settled s hs).resolve_left List.not_mem_nil
      exact .start (.leave hleft (hsweep p hp))
    · have hsearch : g.searchNew t s = g.searchBelow [] t s := by simp [searchNew, Tour.colour, hs]
      rw [hsearch] at hsweep ⊢
      refine ⟨_, List.append_assoc _ _ _, fun p hp => .start ?_⟩
      exact sweep_examineEach (hp.meet s) (List.nodup_singleton s) (hp.fresh s hs) fun q hq _ => hsweep q hq

end Sweeps

/-- The back edges are the edges to grey nodes, those on the current path, that a single depth-first search in
three colours examines. It starts from the white nodes in order, meets the node from which it starts and examines
the edges from it in order. The back edges are removed in the order in which the search examines them. -/
theorem WellFormed.backEdges_eq_closing (hg : g.WellFormed) :
    (∀ up t u, g.searchBelow up t u = (g.next u).foldl (g.examine u up) { t with met := u :: t.met }) ∧
    g.backEdges = (g.nodes.foldl g.searchNew {}).closing := by
  refine ⟨searchBelow_eq g, ?_⟩
  obtain ⟨es, hes, hsweep⟩ := exists_sweep_searchNew g {} g.nodes
  rw [hes]
  exact hg.backEdges_eq (hsweep g.next (Progress.initial g.next))

/-- Two cycles that share an edge, and an edge to its own start. -/
theorem WellFormed.backEdges_eq_closing_shared :
    (ofEdges ["C"] [("A", "B"), ("B", "C"), ("C", "A"), ("C", "C"), ("B", "A")]).WellFormed ∧
    let g := ofEdges ["C"] [("A", "B"), ("B", "C"), ("C", "A"), ("C", "C"), ("B", "A")]
    (∀ up t u, g.searchBelow up t u = (g.next u).foldl (g.examine u up) { t with met := u :: t.met }) ∧
    g.backEdges = (g.nodes.foldl g.searchNew {}).closing ∧
    g.backEdges = ([("B", "C"), ("B", "A"), ("C", "C")] : List (Text × Text)) := by
  have hg := wellFormed_ofEdges ["C"] [("A", "B"), ("B", "C"), ("C", "A"), ("C", "C"), ("B", "A")]
  obtain ⟨hsearch, hback⟩ := WellFormed.backEdges_eq_closing hg
  exact ⟨hg, hsearch, hback, by decide +kernel⟩

end Flowchart.Digraph
