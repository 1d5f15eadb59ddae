import Flowchart.Connection
import Flowchart.Proofs.Text.Rows
import Flowchart.Proofs.Text.Splitting

/-!
# The parts of a connection

A line with an arrow has a source, and behind the arrow one of three things: the target alone, a single bar and the
target behind it, or a first and a last bar with the label between them and the target behind the last one. Text may
stand before the first bar; it says nothing.

`Connection.Parts.text` puts such parts together. They are the parts of that text (`Connection.Parts.Exact`) if the
arrow behind the source is the first one and there is no bar but those that they name and those in the label. Every
line with an arrow has exact parts, only one choice of them, and it is read as they say
(`Connection.ofText_parts_and_existsUnique`).
-/

namespace Flowchart.Connection

open CodePoint (ofChar)

open Text

/-! ## Behind the arrow -/

/-- What stands behind the arrow of a connection. -/
inductive Rest where
  /-- the target alone -/
  | plain (target : List CodePoint)
  /-- the target behind a single bar -/
  | barred (before target : List CodePoint)
  /-- the label between the first and the last bar, and the target behind the last one -/
  | labelled (before label target : List CodePoint)
  deriving DecidableEq, Repr

namespace Rest

/-- The text that stands behind the arrow. -/
def text : Rest → List CodePoint
  | plain target => target
  | barred before target => before ++ ofChar '|' :: target
  | labelled before label target => before ++ ofChar '|' :: label ++ ofChar '|' :: target

/-- No bar stands before the first bar, and none behind the last one. -/
def Exact : Rest → Prop
  | plain target => ofChar '|' ∉ target
  | barred before target => ofChar '|' ∉ before ∧ ofChar '|' ∉ target
  | labelled before _ target => ofChar '|' ∉ before ∧ ofChar '|' ∉ target

instance : DecidablePred Exact
  | plain target => inferInstanceAs (Decidable (ofChar '|' ∉ target))
  | barred before target => inferInstanceAs (Decidable (ofChar '|' ∉ before ∧ ofChar '|' ∉ target))
  | labelled before _ target => inferInstanceAs (Decidable (ofChar '|' ∉ before ∧ ofChar '|' ∉ target))

/-- The text between the first and the last bar, which is empty without two of them. -/
def label : Rest → List CodePoint
  | plain _ | barred _ _ => []
  | labelled _ label _ => label

/-- The part that mentions the target. -/
def target : Rest → List CodePoint
  | plain target | barred _ target | labelled _ _ target => target

/-- The bars of a text taken apart. -/
def ofText (s : List CodePoint) : Rest :=
  match splitLast [ofChar '|'] s with
  | none => plain s
  | some (before, target) =>
    match splitFirst [ofChar '|'] before with
    | none => barred before target
    | some (before, label) => labelled before label target

theorem text_ofText (s : List CodePoint) : (ofText s).text = s := by
  unfold ofText
  cases hlast : splitLast [ofChar '|'] s with
  | none => rfl
  | some p =>
    obtain ⟨before, target⟩ := p
    have hs := eq_append_of_splitLast hlast
    dsimp only
    cases hfirst : splitFirst [ofChar '|'] before with
    | none => simp [text, hs]
    | some q => simp [text, hs, eq_append_of_splitFirst hfirst]

theorem exact_ofText (s : List CodePoint) : (ofText s).Exact := by
  unfold ofText
  cases hlast : splitLast [ofChar '|'] s with
  | none => exact splitLast_singleton_eq_none_iff.1 hlast
  | some p =>
    obtain ⟨before, target⟩ := p
    have htarget := not_mem_of_splitLast hlast
    dsimp only
    cases hfirst : splitFirst [ofChar '|'] before with
    | none => exact ⟨splitFirst_singleton_eq_none_iff.1 hfirst, htarget⟩
    | some q => exact ⟨not_mem_of_splitFirst hfirst, htarget⟩

/-- The bars of a text are found again. -/
theorem ofText_text {r : Rest} (h : r.Exact) : ofText r.text = r := by
  unfold ofText
  cases r with
  | plain target =>
    have hlast : splitLast [ofChar '|'] target = none := splitLast_singleton_eq_none_iff.2 h
    simp only [text, hlast]
  | barred before target =>
    have hfirst : splitFirst [ofChar '|'] before = none := splitFirst_singleton_eq_none_iff.2 h.1
    simp only [text, splitLast_singleton h.2, hfirst]
  | labelled before label target =>
    simp only [text, splitLast_singleton h.2, splitFirst_singleton h.1]

theorem parts_isInfix (r : Rest) : r.label <:+: r.text ∧ r.target <:+: r.text := by
  cases r with
  | plain target => exact ⟨⟨[], target, rfl⟩, List.infix_refl target⟩
  | barred before target =>
    exact ⟨⟨[], before ++ ofChar '|' :: target, rfl⟩, ⟨before ++ [ofChar '|'], [], by simp [text, Rest.target]⟩⟩
  | labelled before label target =>
    exact ⟨⟨before ++ [ofChar '|'], ofChar '|' :: target, by simp [text, Rest.label]⟩,
      ⟨before ++ ofChar '|' :: label ++ [ofChar '|'], [], by simp [text, Rest.target]⟩⟩

theorem Exact.not_mem_target {r : Rest} (h : r.Exact) : ofChar '|' ∉ r.target := by
  cases r with
  | plain target => exact h
  | barred before target => exact h.2
  | labelled before label target => exact h.2

end Rest

theorem labelAndTarget_eq (s : List CodePoint) :
    labelAndTarget s = (strip (Rest.ofText s).label, (Rest.ofText s).target) := by
  unfold labelAndTarget Rest.ofText
  cases splitLast [ofChar '|'] s with
  | none => rfl
  | some p =>
    dsimp only
    cases splitFirst [ofChar '|'] p.1 <;> rfl

/-! ## Around the arrow -/

/-- The first arrow separates the two sides, and there is none in the first of them. -/
theorem sides_spec {s : List CodePoint} (h : arrow <:+: s) :
    s = (sides s).1 ++ arrow ++ (sides s).2 ∧ ¬ arrow <:+: (sides s).1 := by
  unfold sides
  cases hs : splitFirst arrow s with
  | none => exact absurd h (splitFirst_eq_none_iff.1 hs)
  | some p =>
    obtain ⟨hp, hno⟩ := (splitFirst_eq_some_iff (by decide)).1 hs
    exact ⟨hp, fun hi => hno (hi.trans (List.prefix_append _ _).isInfix)⟩

/-- An arrow is the first one if there is none before it, even if there are hyphens. -/
theorem sides_append {a b : List CodePoint} (h : ¬ arrow <:+: a) : sides (a ++ arrow ++ b) = (a, b) := by
  unfold sides
  rw [splitFirst_append (by decide) (by decide) h]
  rfl

/-- What a line with an arrow consists of. -/
structure Parts where
  source : List CodePoint
  rest : Rest
  deriving DecidableEq, Repr

namespace Parts

/-- The line with these parts. -/
def text (p : Parts) : Text := Text.ofList (p.source ++ arrow ++ p.rest.text)

/-- The arrow behind the source is the first one, and the bars are the first and the last one behind it. -/
def Exact (p : Parts) : Prop := ¬ arrow <:+: p.source ∧ p.rest.Exact

instance : DecidablePred Exact := fun p =>
  inferInstanceAs (Decidable (¬ arrow <:+: p.source ∧ p.rest.Exact))

/-- What the parts say. -/
def connection (p : Parts) : Connection :=
  ⟨Fragment.mention p.source, Text.ofList (strip p.rest.label), Fragment.mention p.rest.target⟩

/-- A line taken apart. -/
def ofText (s : Text) : Parts := ⟨(sides s.toList).1, Rest.ofText (sides s.toList).2⟩

theorem toList_text (p : Parts) : p.text.toList = p.source ++ arrow ++ p.rest.text := rfl

theorem text_ofText {s : Text} (h : arrow <:+: s.toList) : (ofText s).text = s := by
  rw [← Text.toList_inj, toList_text]
  unfold ofText
  rw [Rest.text_ofText]
  exact (sides_spec h).1.symm

theorem exact_ofText {s : Text} (h : arrow <:+: s.toList) : (ofText s).Exact :=
  ⟨(sides_spec h).2, Rest.exact_ofText _⟩

theorem ofText_text {p : Parts} (h : p.Exact) : ofText p.text = p := by
  unfold ofText
  rw [toList_text, sides_append h.1, Rest.ofText_text h.2]

theorem arrow_infix_text (p : Parts) : arrow <:+: p.text.toList := ⟨p.source, p.rest.text, p.toList_text.symm⟩

end Parts

theorem ofText_eq (s : Text) : ofText s = (Parts.ofText s).connection := by
  have hrest := labelAndTarget_eq (sides s.toList).2
  show Connection.mk (Fragment.mention (sides s.toList).1)
    (Text.ofList (labelAndTarget (sides s.toList).2).1)
    (Fragment.mention (labelAndTarget (sides s.toList).2).2) = _
  rw [hrest]
  rfl

/-- A line is read as its parts say, and a line has parts exactly if it has an arrow, and then one choice of them. -/
theorem ofText_parts_and_existsUnique :
    (∀ p : Parts, p.Exact → ofText p.text = p.connection) ∧
    ∀ s : Text, arrow <:+: s.toList ↔ ∃! p : Parts, p.Exact ∧ p.text = s := by
  constructor
  · intro p hp
    rw [ofText_eq, Parts.ofText_text hp]
  · intro s
    constructor
    · intro h
      refine ⟨Parts.ofText s, ⟨Parts.exact_ofText h, Parts.text_ofText h⟩, ?_⟩
      rintro p ⟨hp, rfl⟩
      exact (Parts.ofText_text hp).symm
    · rintro ⟨p, ⟨-, rfl⟩, -⟩
      exact p.arrow_infix_text

/-- Hyphens before the arrow belong to the source, and bars and an arrow to the label. -/
theorem ofText_parts_and_existsUnique_hyphens :
    (⟨"A--".toList, .labelled " x".toList " a | b --> c ".toList " D --> E".toList⟩ : Parts).Exact ∧
    ofText "A----> x| a | b --> c | D --> E" =
      ⟨⟨"A--", .state, "A--"⟩, "a | b --> c", ⟨"D", .state, "D"⟩⟩ ∧
    ∃! p : Parts, p.Exact ∧ p.text = "A----> x| a | b --> c | D --> E" := by
  obtain ⟨hread, hunique⟩ := ofText_parts_and_existsUnique
  have hexact :
      (⟨"A--".toList, .labelled " x".toList " a | b --> c ".toList " D --> E".toList⟩ : Parts).Exact := by
    decide
  refine ⟨hexact, (hread _ hexact).trans ?_, (hunique _).1 ?_⟩ <;> decide +kernel

end Flowchart.Connection
