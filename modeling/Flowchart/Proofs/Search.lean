import Flowchart.Layout.Cycle
import Flowchart.Proofs.Digraph
import Flowchart.Proofs.Sweep

/-!
# The search for a cycle

The search finds the edge that a sweep of the graph records first, or none if the sweep records none
(`closingEdge?_eq_head?`).

The walk that the search follows takes more edges than the sweep: from each start it begins with all edges,
and it runs again through nodes that have been explored. The search passes over these parts of the walk
(`follow_explored`), and for all others its trail keeps the active path of the sweep (`Trail.Follows`).
-/

namespace Flowchart

open Function

/-! ## Edges to take -/

theorem get?_of_successorsOf {pending : Entries (List Text)} {u v : Text} {vs : List Text}
    (h : pending.successorsOf u = v :: vs) : pending.get? u = some (v :: vs) := by
  unfold Entries.successorsOf at h
  cases hg : pending.get? u with
  | none => rw [hg] at h; cases h
  | some ws => rw [hg] at h; exact congrArg some h

/-- Every graph has a sweep. -/
theorem exists_sweep (pending : Entries (List Text)) (path starts : List Text) :
    ∃ es, Sweep pending.successorsOf path starts es := by
  match path, starts with
  | [], [] => exact ⟨[], .done⟩
  | [], s :: ss =>
    obtain ⟨es, h⟩ := exists_sweep pending [s] ss
    exact ⟨es, .start h⟩
  | u :: up, ss =>
    match hu : pending.successorsOf u with
    | [] =>
      obtain ⟨es, h⟩ := exists_sweep pending up ss
      exact ⟨es, .leave hu h⟩
    | v :: vs =>
      have hcount := Layout.successorCount_set (get?_of_successorsOf hu)
      by_cases hv : v ∈ u :: up
      · obtain ⟨es, h⟩ := exists_sweep (pending.set u vs) (u :: up) ss
        rw [Entries.successorsOf_set] at h
        exact ⟨(u, v) :: es, .close hu hv h⟩
      · obtain ⟨es, h⟩ := exists_sweep (pending.set u vs) (v :: u :: up) ss
        rw [Entries.successorsOf_set] at h
        exact ⟨es, .enter hu hv h⟩
termination_by 2 * pending.successorCount + path.length + 2 * starts.length
decreasing_by all_goals simp only [List.length_cons, List.length_nil]; omega

namespace Layout

/-! ## The walk -/

theorem edgeWalk_nil (pending : Entries (List Text)) : edgeWalk pending [] = [] := by
  rw [edgeWalk]

theorem edgeWalk_leave {pending : Entries (List Text)} {u : Text} (back : List Text)
    (h : pending.successorsOf u = []) : edgeWalk pending (u :: back) = edgeWalk pending back := by
  rw [edgeWalk]
  split
  · next v vs hg =>
    unfold Entries.successorsOf at h
    rw [hg] at h
    cases h
  · rfl

theorem edgeWalk_take {pending : Entries (List Text)} {u v : Text} {vs : List Text}
    (back : List Text) (h : pending.successorsOf u = v :: vs) :
    edgeWalk pending (u :: back) = (u, v) :: edgeWalk (pending.set u vs) (v :: u :: back) := by
  have hg := get?_of_successorsOf h
  rw [edgeWalk]
  split
  · next w ws hw =>
    rw [hg] at hw
    cases hw
    rfl
  · next hno => exact absurd hg (hno v vs)

/-- The walk has taken all edges that the sweep has taken, but perhaps not those from explored nodes, which
lead to explored nodes. -/
structure Walks (explored : List Text) (walk : Entries (List Text)) (p : Text → List Text) :
    Prop where
  spent : ∀ x ∈ explored, p x = []
  agree : ∀ x ∉ explored, walk.successorsOf x = p x
  closed : ∀ x ∈ explored, ∀ w ∈ walk.successorsOf x, w ∈ explored

namespace Walks

variable {explored : List Text} {walk : Entries (List Text)} {p : Text → List Text}
  {u v : Text} {vs : List Text}

theorem not_mem (h : Walks explored walk p) (hu : p u = v :: vs) : u ∉ explored :=
  fun hx => List.cons_ne_nil v vs (hu.symm.trans (h.spent u hx))

theorem ne_of_mem (h : Walks explored walk p) (hu : p u = v :: vs) {x : Text} (hx : x ∈ explored) :
    x ≠ u := fun hxu => h.not_mem hu (hxu ▸ hx)

/-- The walk takes an edge from an explored node. -/
theorem skip (h : Walks explored walk p) (hx : u ∈ explored) (hu : walk.successorsOf u = v :: vs) :
    Walks explored (walk.set u vs) p where
  spent := h.spent
  agree x hxe := by
    have hne : x ≠ u := fun hxu => hxe (hxu ▸ hx)
    rw [Entries.successorsOf_set, update_of_ne hne]
    exact h.agree x hxe
  closed x hxe w hw := by
    rw [Entries.successorsOf_set] at hw
    by_cases hxu : x = u
    · rw [hxu, update_self] at hw
      exact h.closed u hx w (hu ▸ List.mem_cons_of_mem v hw)
    · rw [update_of_ne hxu] at hw
      exact h.closed x hxe w hw

/-- The walk and the sweep take an edge. -/
theorem take (h : Walks explored walk p) (hu : p u = v :: vs) :
    Walks explored (walk.set u vs) (update p u vs) where
  spent x hx := by
    rw [update_of_ne (h.ne_of_mem hu hx)]
    exact h.spent x hx
  agree x hx := by
    rw [Entries.successorsOf_set]
    by_cases hxu : x = u
    · rw [hxu, update_self, update_self]
    · rw [update_of_ne hxu, update_of_ne hxu]
      exact h.agree x hx
  closed x hx w hw := by
    rw [Entries.successorsOf_set, update_of_ne (h.ne_of_mem hu hx)] at hw
    exact h.closed x hx w hw

end Walks

/-! ## The trail -/

/-- The edges of a path, innermost node first. -/
def chainEdges : List Text → List (Text × Text)
  | v :: u :: up => (u, v) :: chainEdges (u :: up)
  | _ => []

/-- The trail runs along a path, and perhaps beyond its end. -/
structure Trail.Follows (t : Trail) (path : List Text) : Prop where
  suffix : path <:+ t.active
  nodup_active : t.active.Nodup
  path_eq : t.path = chainEdges t.active
  length_le : t.latest = none → t.active.length ≤ 1
  latest : ∀ head, t.latest = some head → t.active.head? = some head

theorem backTo_chainEdges {u : Text} {up back : List Text} {h : Text}
    (hs : u :: up <:+ back) (hn : (h :: back).Nodup) :
    Trail.backTo u (chainEdges (h :: back)) (h :: back) = (chainEdges (u :: up), u :: up) := by
  induction back generalizing h with
  | nil => exact absurd (List.suffix_nil.1 hs) (List.cons_ne_nil _ _)
  | cons y back ih =>
    have hn' := (List.nodup_cons.1 hn).2
    show Trail.backTo u ((y, h) :: chainEdges (y :: back)) (h :: y :: back) = _
    unfold Trail.backTo
    rw [List.erase_cons_head]
    rcases List.suffix_cons_iff.1 hs with heq | hs
    · cases heq
      cases up with
      | nil => rfl
      | cons z up => simp [chainEdges]
    · have hy : y ≠ u := by
        rintro rfl
        exact (List.nodup_cons.1 hn').1 (hs.subset List.mem_cons_self)
      have hhead : ¬ ((chainEdges (y :: back)).head?.map Prod.snd == some u) = true := by
        cases back with
        | nil => simp [chainEdges]
        | cons z back => simp [chainEdges, hy]
      rw [if_neg hhead]
      exact ih hs hn'

namespace Trail

variable {t : Trail} {u : Text} {up : List Text}

/-- Where the search goes on, the trail ends at the tail of the next edge. -/
theorem turn_eq (h : t.Follows (u :: up)) :
    (t.turn u).path = chainEdges (u :: up) ∧ (t.turn u).active = u :: up ∧ (t.turn u).seen = t.seen := by
  obtain ⟨hs, hn, hp, hnone, hsome⟩ := h
  unfold Trail.turn
  cases hl : t.latest with
  | none =>
    have ha : u :: up = t.active := hs.eq_of_length_le (by have := hnone hl; simp; omega)
    exact ⟨ha ▸ hp, ha.symm, rfl⟩
  | some head =>
    have hhead := hsome head hl
    obtain ⟨back, ha⟩ : ∃ back, t.active = head :: back := List.head?_eq_some_iff.1 hhead
    rw [ha] at hs hn hp
    dsimp only
    by_cases hu : head = u
    · have hpath : u :: up = head :: back := by
        rcases List.suffix_cons_iff.1 hs with hs | hs
        · exact hs
        · exact absurd (hu ▸ hs.subset List.mem_cons_self) (List.nodup_cons.1 hn).1
      rw [if_pos (by simpa using hu), hpath]
      exact ⟨hp, ha, rfl⟩
    · have hs' : u :: up <:+ back := by
        rcases List.suffix_cons_iff.1 hs with hs | hs
        · exact absurd (List.cons.inj hs).1.symm hu
        · exact hs
      rw [if_neg (by simpa using hu), hp, ha, backTo_chainEdges hs' hn]
      exact ⟨rfl, rfl, rfl⟩

theorem follows_nil : Follows ⟨[], [], [], none⟩ [] :=
  ⟨List.nil_suffix, List.nodup_nil, rfl, fun _ => Nat.zero_le 1, fun _ h => nomatch h⟩

theorem follows_start (v : Text) : (start v).Follows [v] :=
  ⟨List.suffix_refl _, List.nodup_singleton v, rfl, fun _ => le_rfl, fun _ h => nomatch h⟩

theorem Follows.leave (h : t.Follows (u :: up)) : t.Follows up :=
  { h with suffix := (List.suffix_cons u up).trans h.suffix }

theorem Follows.nodup {path : List Text} (h : t.Follows path) : path.Nodup :=
  h.nodup_active.sublist h.suffix.sublist

theorem Follows.extend (h : t.Follows (u :: up)) {v : Text} (hv : v ∉ u :: up) :
    ((t.turn u).extend u v).Follows (v :: u :: up) := by
  obtain ⟨hp, ha, -⟩ := turn_eq h
  have hactive : ((t.turn u).extend u v).active = v :: u :: up := congrArg (v :: ·) ha
  have hpath : ((t.turn u).extend u v).path = chainEdges (v :: u :: up) := congrArg ((u, v) :: ·) hp
  exact {
    suffix := hactive ▸ List.suffix_refl _
    nodup_active := hactive ▸ List.nodup_cons.2 ⟨hv, h.nodup⟩
    path_eq := hactive ▸ hpath
    length_le := fun hl => nomatch hl
    latest := fun head hl => hactive ▸ hl }

variable {explored : List Text} {walk : List (Text × Text)} {v : Text}

theorem follow_passed (hv : v ∈ explored) :
    t.follow explored ((u, v) :: walk) = t.follow explored walk := by
  rw [Trail.follow, if_pos (by simpa using hv)]

theorem follow_closing (h : t.Follows (u :: up)) (hv : v ∉ explored) (hc : v ∈ u :: up) :
    t.follow explored ((u, v) :: walk) = .inl (u, v) := by
  rw [Trail.follow, if_neg (by simpa using hv)]
  dsimp only
  rw [(turn_eq h).2.1, if_pos (by simpa using hc)]

theorem follow_extend (h : t.Follows (u :: up)) (hv : v ∉ explored) (hc : v ∉ u :: up) :
    t.follow explored ((u, v) :: walk) = ((t.turn u).extend u v).follow explored walk := by
  rw [Trail.follow, if_neg (by simpa using hv)]
  dsimp only
  rw [(turn_eq h).2.1, if_neg (by simpa using hc)]

/-- The search passes over the walk through explored nodes. -/
theorem follow_explored (t : Trail) {explored : List Text} {pending : Entries (List Text)}
    {p : Text → List Text} {back : List Text} (path : List Text) (h : Walks explored pending p)
    (hb : ∀ x ∈ back, x ∈ explored) :
    ∃ rest, Walks explored rest p ∧
      t.follow explored (edgeWalk pending (back ++ path)) = t.follow explored (edgeWalk rest path) := by
  match back with
  | [] => exact ⟨pending, h, rfl⟩
  | u :: back =>
    rw [List.forall_mem_cons] at hb
    match hu : pending.successorsOf u with
    | [] =>
      rw [List.cons_append, edgeWalk_leave _ hu]
      exact follow_explored t path h hb.2
    | v :: vs =>
      have hcount := successorCount_set (get?_of_successorsOf hu)
      have hv : v ∈ explored := h.closed u hb.1 v (hu ▸ List.mem_cons_self)
      have hback : ∀ x ∈ v :: u :: back, x ∈ explored :=
        List.forall_mem_cons.2 ⟨hv, List.forall_mem_cons.2 hb⟩
      obtain ⟨rest, hrest, hfollow⟩ := follow_explored t path (h.skip hb.1 hu) hback
      refine ⟨rest, hrest, ?_⟩
      rw [List.cons_append, edgeWalk_take _ hu, follow_passed hv]
      exact hfollow
termination_by 2 * pending.successorCount + back.length
decreasing_by all_goals simp only [List.length_cons]; omega

end Trail

end Layout

/-! ## The search and the sweep -/

/-- How far a sweep has come that has met the nodes `met`: these are on the active path or done with. -/
structure Progress (next : Text → List Text) (met : List Text) (p : Text → List Text)
    (path : List Text) : Prop where
  fresh : ∀ x, x ∉ met → p x = next x
  settled : ∀ x ∈ met, x ∈ path ∨ p x = []
  closed : ∀ x ∈ met, ∀ w ∈ next x, w ∈ p x ∨ w ∈ met
  path : path ⊆ met

namespace Progress

variable {next p : Text → List Text} {met path : List Text}

theorem initial (next : Text → List Text) : Progress next [] next [] where
  fresh _ _ := rfl
  settled _ hx := nomatch hx
  closed _ hx := nomatch hx
  path := List.nil_subset _

theorem congr {met' : List Text} (h : Progress next met p path) (hm : ∀ x, x ∈ met' ↔ x ∈ met) :
    Progress next met' p path where
  fresh x hx := h.fresh x fun hx' => hx ((hm x).2 hx')
  settled x hx := h.settled x ((hm x).1 hx)
  closed x hx w hw := (h.closed x ((hm x).1 hx) w hw).imp_right (hm w).2
  path _ hx := (hm _).2 (h.path hx)

/-- A node is met. -/
theorem meet (h : Progress next met p path) (v : Text) : Progress next (v :: met) p (v :: path) where
  fresh x hx := h.fresh x fun hx' => hx (List.mem_cons_of_mem v hx')
  settled x hx := by
    rcases List.mem_cons.1 hx with rfl | hx
    · exact Or.inl List.mem_cons_self
    · exact (h.settled x hx).imp_left (List.mem_cons_of_mem v)
  closed x hx w hw := by
    by_cases hmet : x ∈ met
    · exact (h.closed x hmet w hw).imp_right (List.mem_cons_of_mem v)
    · exact Or.inl (h.fresh x hmet ▸ hw)
  path := List.cons_subset_cons v h.path

theorem leave {u : Text} {up : List Text} (h : Progress next met p (u :: up)) (hu : p u = []) :
    Progress next met p up where
  fresh := h.fresh
  settled x hx := by
    rcases h.settled x hx with hp | hp
    · rcases List.mem_cons.1 hp with rfl | hp
      · exact Or.inr hu
      · exact Or.inl hp
    · exact Or.inr hp
  closed := h.closed
  path := List.Subset.trans (List.subset_cons_self u up) h.path

/-- An edge to a node that has been met is taken. -/
theorem take {u v : Text} {vs : List Text} (h : Progress next met p path) (hu : p u = v :: vs)
    (hpath : u ∈ path) (hv : v ∈ met) : Progress next met (update p u vs) path where
  fresh x hx := by
    have hxu : x ≠ u := fun hxu => hx (hxu ▸ h.path hpath)
    rw [update_of_ne hxu]
    exact h.fresh x hx
  settled x hx := by
    by_cases hxu : x = u
    · exact Or.inl (hxu ▸ hpath)
    · rw [update_of_ne hxu]
      exact h.settled x hx
  closed x hx w hw := by
    by_cases hxu : x = u
    · subst hxu
      rw [update_self]
      rcases h.closed x hx w hw with hw | hw
      · rw [hu] at hw
        rcases List.mem_cons.1 hw with rfl | hw
        · exact Or.inr hv
        · exact Or.inl hw
      · exact Or.inr hw
    · rw [update_of_ne hxu]
      exact h.closed x hx w hw
  path := h.path

/-- An edge is taken, and its target is met. -/
theorem enter {u v : Text} {vs : List Text} (h : Progress next met p path) (hu : p u = v :: vs)
    (hpath : u ∈ path) : Progress next (v :: met) (update p u vs) (v :: path) :=
  (h.meet v).take hu (List.mem_cons_of_mem v hpath) List.mem_cons_self

end Progress

namespace Digraph

open Layout

/-- What the search finds after a walk with a given outcome: the edge that has been found, or what it finds
from the other starts. -/
def resume (g : Digraph) (explored starts : List Text) :
    (Text × Text) ⊕ List Text → Option (Text × Text)
  | .inl e => some e
  | .inr seen => g.searchFrom? (seen ++ explored) starts

/-- A trail and a walk that keep step with a sweep whose active path is `passed ++ path`, where only `passed`
has been explored. -/
structure Keeps (g : Digraph) (explored : List Text) (t : Trail) (walk : Entries (List Text))
    (p : Text → List Text) (passed path : List Text) : Prop where
  progress : Progress g.next (t.seen ++ explored) p (passed ++ path)
  walks : Walks explored walk p
  passed : ∀ x ∈ passed, x ∈ explored
  active : ∀ x ∈ path, x ∉ explored
  follows : t.Follows path

variable {g : Digraph} {explored : List Text} {p : Text → List Text}

/-- Between two starts, the walk along all edges agrees with the sweep. -/
theorem walks_of_progress (h : Progress g.next explored p []) : Walks explored g.successors p := by
  have hspent : ∀ x ∈ explored, p x = [] := fun x hx => (h.settled x hx).resolve_left List.not_mem_nil
  refine ⟨hspent, fun x hx => (h.fresh x hx).symm, fun x hx w hw => ?_⟩
  rcases h.closed x hx w hw with hp | hw
  · rw [hspent x hx] at hp
    cases hp
  · exact hw

/-- An explored start is passed over. -/
theorem keeps_explored {s : Text} (h : Progress g.next explored p []) (hs : s ∈ explored) :
    g.Keeps explored ⟨[], [], [], none⟩ g.successors p [s] [] where
  progress := (h.meet s).congr fun x =>
    ⟨List.mem_cons_of_mem s, fun hx => (List.mem_cons.1 hx).elim (fun hxs => hxs ▸ hs) id⟩
  walks := walks_of_progress h
  passed := by simpa using hs
  active := by simp
  follows := Trail.follows_nil

/-- At any other start a new walk begins. -/
theorem keeps_start {s : Text} (h : Progress g.next explored p []) (hs : s ∉ explored) :
    g.Keeps explored (Trail.start s) g.successors p [] [s] where
  progress := h.meet s
  walks := walks_of_progress h
  passed := by simp
  active := by simpa using hs
  follows := Trail.follows_start s

section Steps

variable {t : Trail} {walk : Entries (List Text)} {passed path up : List Text} {u v : Text}
  {vs : List Text}

/-- Where the sweep has an edge to take, the search is there as well. -/
theorem Keeps.path_eq (h : g.Keeps explored t walk p passed path) (hpath : u :: up = passed ++ path)
    (hu : p u = v :: vs) : passed = [] ∧ path = u :: up := by
  cases passed with
  | nil => exact ⟨rfl, hpath.symm⟩
  | cons y passed =>
    obtain ⟨rfl, -⟩ := List.cons.inj hpath
    exact absurd (h.passed u List.mem_cons_self) (h.walks.not_mem hu)

/-- The walk takes an edge to an explored node, and the search passes over what follows. -/
theorem Keeps.pass (h : g.Keeps explored t walk p [] (u :: up)) (hu : p u = v :: vs)
    (hv : v ∈ explored) :
    ∃ rest, g.Keeps explored t rest (update p u vs) [v] (u :: up) ∧
      t.follow explored (edgeWalk walk (u :: up)) = t.follow explored (edgeWalk rest (u :: up)) := by
  have hwalk := (h.walks.agree u (h.walks.not_mem hu)).trans hu
  have hover : ∀ x ∈ [v], x ∈ explored := by simpa using hv
  obtain ⟨rest, hrest, hfollow⟩ := Trail.follow_explored t (u :: up) (h.walks.take hu) hover
  refine ⟨rest, ⟨?_, hrest, hover, h.active, h.follows⟩, ?_⟩
  · refine (h.progress.enter hu List.mem_cons_self).congr fun x => ⟨List.mem_cons_of_mem v, fun hx => ?_⟩
    rcases List.mem_cons.1 hx with rfl | hx
    · exact List.mem_append_right _ hv
    · exact hx
  · rw [edgeWalk_take up hwalk, Trail.follow_passed hv]
    exact hfollow

/-- The walk takes an edge that extends the active path. -/
theorem Keeps.extend (h : g.Keeps explored t walk p [] (u :: up)) (hu : p u = v :: vs)
    (hv : v ∉ explored) (hc : v ∉ u :: up) :
    g.Keeps explored ((t.turn u).extend u v) (walk.set u vs) (update p u vs) [] (v :: u :: up) where
  progress := by
    have hseen : ((t.turn u).extend u v).seen = v :: t.seen :=
      congrArg (v :: ·) (Trail.turn_eq h.follows).2.2
    rw [hseen]
    exact h.progress.enter hu List.mem_cons_self
  walks := h.walks.take hu
  passed := h.passed
  active := List.forall_mem_cons.2 ⟨hv, h.active⟩
  follows := h.follows.extend hc

end Steps

/-- The search finds the edge that the sweep records first. -/
theorem resume_follow_eq_head? {starts whole : List Text} {es : List (Text × Text)}
    (h : Sweep p whole starts es) {passed path : List Text} {t : Trail} {walk : Entries (List Text)}
    (hwhole : whole = passed ++ path) (hk : g.Keeps explored t walk p passed path) :
    g.resume explored starts (t.follow explored (edgeWalk walk path)) = es.head? := by
  induction h generalizing passed path explored t walk with
  | done =>
    obtain ⟨rfl, rfl⟩ := List.append_eq_nil_iff.1 hwhole.symm
    rw [edgeWalk_nil]
    rfl
  | @start p s ss es _ ih =>
    obtain ⟨rfl, rfl⟩ := List.append_eq_nil_iff.1 hwhole.symm
    have hprogress : Progress g.next (t.seen ++ explored) p [] := hk.progress
    rw [edgeWalk_nil]
    show g.searchFrom? (t.seen ++ explored) (s :: ss) = es.head?
    rw [searchFrom?]
    by_cases hs : s ∈ t.seen ++ explored
    · rw [if_pos (by simpa using hs), ← ih rfl (keeps_explored hprogress hs), edgeWalk_nil]
      rfl
    · rw [if_neg (by simpa using hs), ← ih rfl (keeps_start hprogress hs)]
      rfl
  | @leave p u up ss es hu _ ih =>
    cases passed with
    | cons y passed =>
      obtain ⟨rfl, rfl⟩ := List.cons.inj hwhole
      exact ih rfl { hk with
        progress := hk.progress.leave hu
        passed := fun x hx => hk.passed x (List.mem_cons_of_mem _ hx) }
    | nil =>
      obtain rfl : u :: up = path := hwhole
      have hwalk := hk.walks.agree u (hk.active u List.mem_cons_self)
      rw [edgeWalk_leave up (hwalk.trans hu)]
      have hk' : g.Keeps explored t walk p [] up := { hk with
        progress := hk.progress.leave hu
        active := fun x hx => hk.active x (List.mem_cons_of_mem u hx)
        follows := hk.follows.leave }
      exact ih rfl hk'
  | @close p u v vs up ss es hu hv _ _ =>
    obtain ⟨rfl, rfl⟩ := hk.path_eq hwhole hu
    have hwalk := (hk.walks.agree u (hk.walks.not_mem hu)).trans hu
    rw [edgeWalk_take up hwalk, Trail.follow_closing hk.follows (hk.active v hv) hv]
    rfl
  | @enter p u v vs up ss es hu hv _ ih =>
    obtain ⟨rfl, rfl⟩ := hk.path_eq hwhole hu
    by_cases hx : v ∈ explored
    · -- the sweep goes to `v` and turns back at once, the walk goes through what lies behind `v`
      obtain ⟨rest, hk', hfollow⟩ := hk.pass hu hx
      rw [hfollow]
      exact ih rfl hk'
    · have hwalk := (hk.walks.agree u (hk.walks.not_mem hu)).trans hu
      rw [edgeWalk_take up hwalk, Trail.follow_extend hk.follows hx hv]
      exact ih rfl (hk.extend hu hx hv)

/-- The search finds the edge that the sweep of the graph records first. -/
theorem closingEdge?_eq_head? {es : List (Text × Text)} (h : Sweep g.next [] g.nodes es) :
    g.closingEdge? = es.head? := by
  have hprogress := Progress.initial g.next
  have hk : g.Keeps [] ⟨[], [], [], none⟩ g.successors g.next [] [] :=
    ⟨hprogress, walks_of_progress hprogress, by simp, by simp, Trail.follows_nil⟩
  rw [← resume_follow_eq_head? h rfl hk, edgeWalk_nil]
  rfl

end Digraph

end Flowchart
