import Flowchart.Position.Grid
import Flowchart.Proofs.Entries
import Flowchart.Proofs.Outcome

/-!
# Cells within range

A coordinate can be computed exactly if no number that is turned into a float lies beyond the range of floats
(`Grid.InRange`). This depends on the cell and on the sizes of the grid, and not on what is drawn: the positions of
some cells can be computed if all of them are in range, and otherwise the range is what they fail for
(`Grid.settled_positions`).
-/

namespace Flowchart.Position

variable {α β : Type}

/-! ## Numbers -/

namespace Number

/-- A number within the range of floats. -/
def Fits (n : Number) : Prop := ∃ x, n.toFloat = .ok x

/-- Two numbers whose product can be computed as a float. -/
def ProductFits (a b : Number) : Prop := ∃ c, a.mul b = .ok c ∧ c.Fits

theorem eq_tooLarge_of_toFloat {n : Number} {f : Value.Fault} (h : n.toFloat = .error f) : f = .tooLarge := by
  cases n with
  | int n =>
    show f = .tooLarge
    change (Decimal.floatOfInt? n).elim (Except.error .tooLarge) .ok = .error f at h
    cases hn : Decimal.floatOfInt? n with
    | none => rw [hn] at h; exact (Except.error.inj h).symm
    | some x => rw [hn] at h; cases h
  | float x => cases h

/-- A number times a float is a float, as soon as the number is within range. -/
theorem mul_float (n : Number) (u : Float) :
    n.mul (.float u) = (do return .float ((← n.toFloat) * u)) := by cases n <;> rfl

theorem eq_tooLarge_of_mul {a b : Number} {f : Value.Fault} (h : a.mul b = .error f) : f = .tooLarge := by
  cases b with
  | float u =>
    rw [mul_float] at h
    cases ha : a.toFloat with
    | error e =>
      rw [ha, error_bind] at h
      exact Except.error.inj h ▸ eq_tooLarge_of_toFloat ha
    | ok x => rw [ha] at h; cases h
  | int n =>
    cases a with
    | int m => cases h
    | float x =>
      change (do return Number.float (x * (← (Number.int n).toFloat))) = _ at h
      cases hn : (Number.int n).toFloat with
      | error e =>
        rw [hn, error_bind] at h
        exact Except.error.inj h ▸ eq_tooLarge_of_toFloat hn
      | ok y => rw [hn] at h; cases h

end Number

/-! ## Draws that depend on a condition -/

/-- Whatever the random sequence is, the computation goes through under the condition `P`, with a result that
satisfies `Q`, and otherwise fails because a number is too large. -/
def Settled (P : Prop) (m : Draw α) (Q : α → Prop) : Prop :=
  ∀ t, (P → ∃ a, (m.run t).1 = .ok a ∧ Q a) ∧ (¬ P → (m.run t).1 = .error .tooLarge)

namespace Settled

variable {P S : Prop} {m : Draw α} {f : α → Draw β} {Q : α → Prop} {Q' : β → Prop}

theorem pure {a : α} (h : Q a) : Settled True (Pure.pure a : Draw α) Q :=
  fun _ => ⟨fun _ => ⟨a, rfl, h⟩, fun hno => absurd trivial hno⟩

theorem bind (h : Settled P m Q) (hf : ∀ a, Q a → Settled S (f a) Q') : Settled (P ∧ S) (m >>= f) Q' := by
  intro t
  rw [run_bind]
  by_cases hP : P
  · obtain ⟨a, ha, hQ⟩ := (h t).1 hP
    rcases hr : m.run t with ⟨r, t'⟩
    obtain rfl : r = .ok a := by rw [hr] at ha; exact ha
    exact ⟨fun hPP => (hf a hQ t').1 hPP.2, fun hno => (hf a hQ t').2 fun hP' => hno ⟨hP, hP'⟩⟩
  · have he := (h t).2 hP
    rcases hr : m.run t with ⟨r, t'⟩
    obtain rfl : r = .error .tooLarge := by rw [hr] at he; exact he
    exact ⟨fun hPP => absurd hPP.1 hP, fun _ => rfl⟩

theorem lift {e : Except Value.Fault α} (h : ∀ f, e = .error f → f = .tooLarge) :
    Settled (∃ a, e = .ok a) (liftM e : Draw α) fun a => e = .ok a := by
  intro t
  cases e with
  | ok a => exact ⟨fun _ => ⟨a, rfl, rfl⟩, fun hno => absurd ⟨a, rfl⟩ hno⟩
  | error f =>
    obtain rfl := h f rfl
    refine ⟨?_, fun _ => rfl⟩
    rintro ⟨a, ha⟩
    cases ha

theorem congr (h : Settled P m Q) (hP : S ↔ P) : Settled S m Q :=
  fun t => ⟨fun hP' => (h t).1 (hP.1 hP'), fun hno => (h t).2 (mt hP.2 hno)⟩

theorem weaken {R : α → Prop} (h : Settled P m Q) (hR : ∀ a, Q a → R a) : Settled P m R := by
  refine fun t => ⟨fun hP => ?_, (h t).2⟩
  obtain ⟨a, ha, hQ⟩ := (h t).1 hP
  exact ⟨a, ha, hR a hQ⟩

end Settled

/-! ## Coordinates -/

namespace Grid

variable {g : Grid} {a b : Number}

/-- The offsets of a grid can be computed: there are none, or the numbers from which they are computed are
within the range of floats. -/
def OffsetFits (g : Grid) : Prop := g.jitter.isZero = true ∨ g.jitter.double.Fits ∧ g.jitter.neg.Fits

/-- The coordinates of a cell can be computed. -/
def InRange (g : Grid) (depth column : Number) : Prop :=
  column.ProductFits g.cellWidth ∧ depth.ProductFits g.cellHeight ∧ g.OffsetFits

theorem settled_drawUnit : Settled True drawUnit fun _ => True :=
  fun _ => ⟨fun _ => ⟨_, rfl, trivial⟩, fun hno => absurd trivial hno⟩

theorem settled_toFloat (a : Number) : Settled a.Fits (liftM a.toFloat : Draw Float) fun _ => True :=
  (Settled.lift fun _ => Number.eq_tooLarge_of_toFloat).weaken fun _ _ => trivial

theorem settled_mul (a b : Number) :
    Settled (∃ c, a.mul b = .ok c) (liftM (a.mul b) : Draw Number) fun c => a.mul b = .ok c :=
  Settled.lift fun _ => Number.eq_tooLarge_of_mul

theorem settled_mul_float (a : Number) (u : Float) :
    Settled a.Fits (liftM (a.mul (.float u)) : Draw Number) Number.Fits := by
  refine ((settled_mul a (.float u)).congr ?_).weaken fun c hc => ?_
  · rw [Number.mul_float]
    unfold Number.Fits
    cases a.toFloat with
    | error e =>
      constructor
      · rintro ⟨x, hx⟩
        cases hx
      · rintro ⟨c, hc⟩
        cases hc
    | ok x => exact iff_of_true ⟨x, rfl⟩ ⟨_, rfl⟩
  · rw [Number.mul_float] at hc
    cases ha : a.toFloat with
    | error e => rw [ha] at hc; cases hc
    | ok x =>
      rw [ha] at hc
      obtain rfl := Except.ok.inj hc
      exact ⟨_, rfl⟩

theorem settled_offset (g : Grid) : Settled g.OffsetFits g.offset fun _ => True := by
  unfold offset
  by_cases hzero : g.jitter.isZero = true
  · rw [if_pos hzero]
    exact (Settled.pure trivial).congr (iff_true_intro (Or.inl hzero))
  · rw [if_neg hzero]
    refine Settled.congr (settled_drawUnit.bind fun u _ => (settled_mul_float _ u).bind fun part hpart =>
      (settled_toFloat _).bind fun x _ => Settled.congr ((settled_toFloat part).bind fun y _ =>
        Settled.pure trivial) (S := True) ?_) ?_
    · exact iff_of_true trivial ⟨hpart, trivial⟩
    · unfold OffsetFits
      rw [or_iff_right hzero, true_and, and_true]

theorem settled_coordinate (g : Grid) (count size : Number) :
    Settled (count.ProductFits size ∧ g.OffsetFits) (g.coordinate count size) fun _ => True := by
  unfold coordinate
  refine Settled.congr ((settled_mul count size).bind fun corner hcorner => (settled_offset g).bind fun x _ =>
    Settled.congr ((settled_toFloat corner).bind fun y _ => Settled.pure trivial)
      (S := count.ProductFits size) ?_) ?_
  · constructor
    · rintro ⟨c, hc, hfits⟩
      obtain rfl := Except.ok.inj (hcorner.symm.trans hc)
      exact ⟨hfits, trivial⟩
    · exact fun h => ⟨corner, hcorner, h.1⟩
  · constructor
    · rintro ⟨⟨c, hc, hfits⟩, hoffset⟩
      exact ⟨⟨c, hc⟩, hoffset, c, hc, hfits⟩
    · exact fun ⟨_, hoffset, hproduct⟩ => ⟨hproduct, hoffset⟩

theorem settled_position (g : Grid) (depth column : Number) :
    Settled (g.InRange depth column) (g.position depth column) fun _ => True := by
  unfold position
  refine Settled.congr ((settled_coordinate g column g.cellWidth).bind fun x _ =>
    (settled_coordinate g depth g.cellHeight).bind fun y _ => Settled.pure trivial) ?_
  unfold InRange
  tauto

/-- Some cells get positions exactly if all of them are in range. -/
theorem settled_positions (g : Grid) (cells : Entries (Number × Number)) :
    Settled (∀ e ∈ cells, g.InRange e.2.1 e.2.2) (g.positions cells) fun points => points.ids = cells.ids := by
  induction cells with
  | nil =>
    have hnil : Settled True (g.positions []) fun points => points.ids = Entries.ids [] := Settled.pure rfl
    exact hnil.congr (iff_true_intro fun _ he => absurd he List.not_mem_nil)
  | cons e cells ih =>
    obtain ⟨id, depth, column⟩ := e
    refine Settled.congr ((settled_position g depth column).bind fun point _ => ih.bind fun points hpoints =>
      Settled.pure ?_) ?_
    · rw [Entries.ids_cons, Entries.ids_cons, hpoints]
    · rw [List.forall_mem_cons, and_true]

/-- The nodes of a layout get positions exactly if their cells are in range. -/
theorem settled_positionsOf (g : Grid) (l : Layout) :
    Settled (∀ e ∈ l.placements, g.InRange (.int e.2.depth) (.int e.2.column)) (g.positionsOf l)
      fun points => points.ids = l.placements.ids := by
  refine ((settled_positions g _).congr ?_).weaken fun points hpoints => ?_
  · rw [List.forall_mem_map]
  · rw [hpoints]
    unfold Entries.ids
    rw [List.map_map]
    rfl

end Grid

end Flowchart.Position
