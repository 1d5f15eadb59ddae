import Flowchart.Position.Grid
import Flowchart.Proofs.Outcome
import Mathlib.Tactic.Common

/-!
# Which draws a position is made of

A grid with a jitter draws one float for each coordinate, and a grid without one draws none. So the cells of a layout
draw in their order: cell number `k` takes the draws `2 * k` and `2 * k + 1` of the sequence (`Grid.takes_positions`).
What it makes of them is computed without drawing (`Grid.positionFrom`).
-/

namespace Flowchart.Position

variable {α β : Type}

/-! ## Sequences -/

namespace Twister

theorem drop_add (t : Twister) (m n : ℕ) : t.drop (m + n) = (t.drop m).drop n := by
  induction m generalizing t with
  | zero => rw [Nat.zero_add, drop]
  | succ m ih => rw [Nat.add_right_comm, drop, ih, drop]

/-- Draw number `k` of a sequence. -/
def draw (t : Twister) (k : ℕ) : Float := (t.drop k).unit.1

end Twister

namespace Grid

variable {g : Grid} {t : Twister} {k n j : ℕ}

/-- The sequence after `n` coordinates have been computed. -/
def after (g : Grid) (t : Twister) (n : ℕ) : Twister := if g.jitter.isZero then t else t.drop n

theorem after_zero (g : Grid) (t : Twister) : g.after t 0 = t := by
  unfold after
  split_ifs <;> rfl

theorem after_add (g : Grid) (t : Twister) (m n : ℕ) : g.after t (m + n) = g.after (g.after t m) n := by
  unfold after
  split_ifs
  · rfl
  · exact t.drop_add m n

/-- On the sequence after `k` coordinates a computation has the result `r`; when it goes through, it has computed `n`
coordinates more. -/
def Takes (g : Grid) (t : Twister) (k n : ℕ) (m : Draw α) (r : Except Value.Fault α) : Prop :=
  (m.run (g.after t k)).1 = r ∧ ∀ a, r = .ok a → (m.run (g.after t k)).2 = g.after t (k + n)

namespace Takes

variable {m : Draw α} {f : α → Draw β} {r : Except Value.Fault α} {s : α → Except Value.Fault β}

theorem lift (e : Except Value.Fault α) : g.Takes t k 0 (liftM e : Draw α) e := by
  cases e with
  | error f => exact ⟨rfl, nofun⟩
  | ok a => exact ⟨rfl, fun _ _ => rfl⟩

theorem bind (h : g.Takes t k n m r) (hf : ∀ a, r = .ok a → g.Takes t (k + n) j (f a) (s a)) :
    g.Takes t k (n + j) (m >>= f) (r >>= s) := by
  obtain ⟨hresult, hstate⟩ := h
  unfold Takes
  rw [run_bind]
  rcases hrun : m.run (g.after t k) with ⟨r₁, t₁⟩
  rw [hrun] at hresult hstate
  dsimp only at hresult hstate
  subst hresult
  cases r₁ with
  | error e =>
    refine ⟨rfl, ?_⟩
    rintro a ⟨⟩
  | ok a =>
    obtain rfl := hstate a rfl
    rw [← Nat.add_assoc]
    exact hf a rfl

theorem pure (a : α) : g.Takes t k 0 (Pure.pure a : Draw α) (.ok a) := ⟨rfl, fun _ _ => rfl⟩

end Takes

/-! ## Coordinates -/

/-- The offset that a grid makes of a draw. -/
def offsetFrom (g : Grid) (u : Float) : Except Value.Fault Float :=
  if g.jitter.isZero then return 0.0
  else do
    let part ← g.jitter.double.mul (.float u)
    return (← g.jitter.neg.toFloat) + (← part.toFloat)

/-- The coordinate that a grid makes of a draw. -/
def coordinateFrom (g : Grid) (count size : Number) (u : Float) : Except Value.Fault Float := do
  let corner ← count.mul size
  let moved ← g.offsetFrom u
  return (← corner.toFloat) + moved

/-- The position that a grid makes of two draws. -/
def positionFrom (g : Grid) (depth column : Number) (u v : Float) : Except Value.Fault (Float × Float) := do
  let x ← g.coordinateFrom column g.cellWidth u
  let y ← g.coordinateFrom depth g.cellHeight v
  return (x, y)

/-- The positions that a grid makes of the draws from number `k` on. -/
def positionsFrom (g : Grid) (t : Twister) : ℕ → Entries (Number × Number) →
    Except Value.Fault (Entries (Float × Float))
  | _, [] => return []
  | k, (id, depth, column) :: rest => do
    let point ← g.positionFrom depth column (t.draw k) (t.draw (k + 1))
    return (id, point) :: (← g.positionsFrom t (k + 2) rest)

theorem positionsFrom_cons (g : Grid) (t : Twister) (k : ℕ) (id : Text) (depth column : Number)
    (cells : Entries (Number × Number)) :
    g.positionsFrom t k ((id, depth, column) :: cells) = do
      let point ← g.positionFrom depth column (t.draw k) (t.draw (k + 1))
      return (id, point) :: (← g.positionsFrom t (k + 2) cells) := rfl

theorem ids_positionsFrom {cells : Entries (Number × Number)} {points : Entries (Float × Float)}
    (h : g.positionsFrom t k cells = .ok points) : points.ids = cells.ids := by
  induction cells generalizing k points with
  | nil =>
    obtain rfl := Except.ok.inj h
    rfl
  | cons e cells ih =>
    obtain ⟨id, depth, column⟩ := e
    rw [positionsFrom_cons] at h
    obtain ⟨p, -, h⟩ := of_bind_eq_ok h
    obtain ⟨rest, hrest, h⟩ := of_bind_eq_ok h
    obtain rfl := Except.ok.inj h
    rw [Entries.ids_cons, Entries.ids_cons, ih hrest]

/-- Cell number `i` makes its position of the draws `k + 2 * i` and `k + 2 * i + 1`. -/
theorem getElem?_positionsFrom {cells : Entries (Number × Number)} {points : Entries (Float × Float)}
    (h : g.positionsFrom t k cells = .ok points) {i : ℕ} {id : Text} {depth column : Number}
    (hi : cells[i]? = some (id, depth, column)) :
    ∃ p, (id, p) ∈ points ∧
      g.positionFrom depth column (t.draw (k + 2 * i)) (t.draw (k + 2 * i + 1)) = .ok p := by
  induction cells generalizing k i points with
  | nil => cases hi
  | cons e cells ih =>
    obtain ⟨id', depth', column'⟩ := e
    rw [positionsFrom_cons] at h
    obtain ⟨p, hp, h⟩ := of_bind_eq_ok h
    obtain ⟨rest, hrest, h⟩ := of_bind_eq_ok h
    obtain rfl := Except.ok.inj h
    cases i with
    | zero =>
      cases hi
      exact ⟨p, List.mem_cons_self, hp⟩
    | succ i =>
      obtain ⟨q, hq, hdraws⟩ := ih hrest hi
      have hnumber : k + 2 * (i + 1) = k + 2 + 2 * i := by omega
      rw [hnumber]
      exact ⟨q, List.mem_cons_of_mem _ hq, hdraws⟩

theorem takes_offset (g : Grid) (t : Twister) (k : ℕ) : g.Takes t k 1 g.offset (g.offsetFrom (t.draw k)) := by
  unfold offset offsetFrom
  by_cases hzero : g.jitter.isZero = true
  · rw [if_pos hzero, if_pos hzero]
    refine ⟨rfl, fun _ _ => ?_⟩
    show g.after t k = g.after t (k + 1)
    unfold after
    rw [if_pos hzero, if_pos hzero]
  · rw [if_neg hzero, if_neg hzero]
    have hdraw : g.Takes t k 1 drawUnit (.ok (t.draw k)) := by
      unfold Takes after Twister.draw
      rw [if_neg hzero, if_neg hzero, Twister.drop_add]
      exact ⟨rfl, fun _ _ => rfl⟩
    exact hdraw.bind (j := 0) (s := fun u => do
        let part ← g.jitter.double.mul (.float u)
        return (← g.jitter.neg.toFloat) + (← part.toFloat)) fun u _ =>
      (Takes.lift _).bind (j := 0) fun _ _ => (Takes.lift _).bind (j := 0) fun _ _ =>
        (Takes.lift _).bind (j := 0) fun _ _ => Takes.pure _

theorem takes_coordinate (g : Grid) (t : Twister) (k : ℕ) (count size : Number) :
    g.Takes t k 1 (g.coordinate count size) (g.coordinateFrom count size (t.draw k)) :=
  (Takes.lift _).bind (j := 1) fun _ _ => (takes_offset g t k).bind (j := 0) fun _ _ =>
    (Takes.lift _).bind (j := 0) fun _ _ => Takes.pure _

theorem takes_position (g : Grid) (t : Twister) (k : ℕ) (depth column : Number) :
    g.Takes t k 2 (g.position depth column) (g.positionFrom depth column (t.draw k) (t.draw (k + 1))) :=
  (takes_coordinate g t k column g.cellWidth).bind (j := 1) fun _ _ =>
    (takes_coordinate g t (k + 1) depth g.cellHeight).bind (j := 0) fun _ _ => Takes.pure _

theorem takes_positions (g : Grid) (t : Twister) (k : ℕ) (cells : Entries (Number × Number)) :
    g.Takes t k (2 * cells.length) (g.positions cells) (g.positionsFrom t k cells) := by
  induction cells generalizing k with
  | nil => exact Takes.pure _
  | cons e cells ih =>
    obtain ⟨id, depth, column⟩ := e
    rw [List.length_cons, Nat.mul_add, Nat.add_comm]
    exact (takes_position g t k depth column).bind fun _ _ => (ih (k + 2)).bind (j := 0) fun _ _ => Takes.pure _

end Grid

end Flowchart.Position
