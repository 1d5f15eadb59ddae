import Flowchart.Fragment
import Flowchart.Proofs.Text.Rows
import Flowchart.Proofs.Text.Splitting

/-!
# What fragments say

`Shape.Encloses` says that the brackets of a shape stand around some part of a text. The shape of a fragment
is the first one that encloses a part of it (`bracketed?_eq_some_iff`).

Blanks around a fragment do not matter (`mention_append_left`, `mention_append_right`), and what it says is a
part of it (`mention_isInfix`). The shape by itself is that of the mention, and so is the label, unless a fragment
that is not blank has neither an id nor a text in its brackets (`shape_and_label_eq_mention`). A node whose id is
`Plain`, one run without blanks and brackets, is read back from its id alone (`mention_plain`) and from its
declaration (`mention_render`).
-/

namespace Flowchart

namespace Shape

/-- The brackets of a shape stand around a part of a text. -/
def Encloses (shape : Shape) (f : List CodePoint) : Prop :=
  ∃ a b c, f = a ++ shape.opener ++ b ++ shape.closer ++ c

/-- The shapes whose brackets are looked for before those of `shape`. -/
def earlier (shape : Shape) : List Shape := all.takeWhile (· != shape)

@[simp] theorem earlier_state : earlier .state = [] := rfl

@[simp] theorem earlier_action : earlier .action = [.state] := rfl

@[simp] theorem earlier_choice : earlier .choice = [.state, .action] := rfl

theorem opener_ne_nil (shape : Shape) : shape.opener ≠ [] := by cases shape <;> decide

theorem closer_ne_nil (shape : Shape) : shape.closer ≠ [] := by cases shape <;> decide

theorem isBlank_opener {shape : Shape} : ∀ c ∈ shape.opener, Text.isBlank c = false := by
  cases shape <;> decide

theorem isBlank_closer {shape : Shape} : ∀ c ∈ shape.closer, Text.isBlank c = false := by
  cases shape <;> decide

theorem endsIdentifier_opener {shape : Shape} :
    ∀ c ∈ shape.opener, Fragment.endsIdentifier c = true := by
  cases shape <;> decide

theorem closer_getLast_ne {s t : Shape} (h : s ∈ t.earlier) :
    ∀ c ∈ t.closer, s.closer.getLast? ≠ some c := by
  cases t <;> simp only [earlier_state, earlier_action, earlier_choice,
    List.not_mem_nil, List.mem_cons, or_false] at h
  · subst h; decide
  · rcases h with rfl | rfl <;> decide

theorem opener_getLast_ne {s t : Shape} : ∀ c ∈ t.closer, s.opener.getLast? ≠ some c := by
  cases s <;> cases t <;> decide

theorem opener_head_ne {s t : Shape} (h : s ∈ t.earlier) :
    ∀ c ∈ t.opener, s.opener.head? ≠ some c := by
  cases t <;> simp only [earlier_state, earlier_action, earlier_choice,
    List.not_mem_nil, List.mem_cons, or_false] at h
  · subst h; decide
  · rcases h with rfl | rfl <;> decide

theorem Encloses.mono {shape : Shape} {f g : List CodePoint} (h : shape.Encloses f) (hfg : f <:+: g) :
    shape.Encloses g := by
  obtain ⟨a, b, c, rfl⟩ := h
  obtain ⟨u, v, rfl⟩ := hfg
  exact ⟨u ++ a, b, c ++ v, by simp⟩

end Shape

namespace Fragment

open Text

/-! ## Enclosed parts -/

/-- The enclosed part lies between brackets of the shape. -/
theorem eq_append_of_enclosed? {shape : Shape} {f l : List CodePoint} (h : enclosed? shape f = some l) :
    ∃ a b c, f = a ++ shape.opener ++ b ++ shape.closer ++ c ∧ l = strip b := by
  unfold enclosed? at h
  simp only [Option.bind_eq_bind, Option.bind_eq_some_iff] at h
  obtain ⟨⟨a, inside⟩, hs, ⟨b, c⟩, hi, hl⟩ := h
  refine ⟨a, b, c, ?_, (Option.some.inj hl).symm⟩
  have hi : inside = b ++ shape.closer ++ c := eq_append_of_splitLast hi
  rw [eq_append_of_splitFirst hs, hi]
  simp

theorem enclosed?_eq_none_iff {shape : Shape} {f : List CodePoint} :
    enclosed? shape f = none ↔ ¬ shape.Encloses f := by
  constructor
  · rintro h ⟨a, b, c, rfl⟩
    cases hs : splitFirst shape.opener (a ++ shape.opener ++ b ++ shape.closer ++ c) with
    | none =>
      rw [splitFirst_eq_none_iff] at hs
      exact hs ⟨a, b ++ shape.closer ++ c, by simp⟩
    | some p =>
      obtain ⟨x, inside⟩ := p
      have hb : b ++ shape.closer ++ c <:+ inside := by
        refine suffix_of_splitFirst (a := a) (x := x) shape.opener_ne_nil ?_
        rw [← hs]
        simp
      cases hl : splitLast shape.closer inside with
      | none =>
        rw [splitLast_eq_none_iff] at hl
        exact hl (List.IsInfix.trans ⟨b, c, rfl⟩ hb.isInfix)
      | some q =>
        unfold enclosed? at h
        rw [hs] at h
        simp only [Option.bind_eq_bind, Option.bind_some, hl] at h
        cases h
  · intro h
    by_contra hne
    obtain ⟨l, hl⟩ := Option.ne_none_iff_exists'.1 hne
    obtain ⟨a, b, c, hf, -⟩ := eq_append_of_enclosed? hl
    exact h ⟨a, b, c, hf⟩

instance (shape : Shape) (f : List CodePoint) : Decidable (shape.Encloses f) :=
  decidable_of_iff (enclosed? shape f ≠ none) (by rw [ne_eq, enclosed?_eq_none_iff, not_not])

theorem enclosed?_append_left {shape : Shape} {a : List CodePoint}
    (ha : ∀ c ∈ a, shape.opener.head? ≠ some c) (f : List CodePoint) :
    enclosed? shape (a ++ f) = enclosed? shape f := by
  unfold enclosed?
  rw [splitFirst_append_left ha shape.opener_ne_nil]
  cases splitFirst shape.opener f <;> rfl

theorem enclosed?_append_right {shape : Shape} {b : List CodePoint}
    (ho : ∀ c ∈ b, shape.opener.getLast? ≠ some c) (hc : ∀ c ∈ b, shape.closer.getLast? ≠ some c)
    (f : List CodePoint) : enclosed? shape (f ++ b) = enclosed? shape f := by
  unfold enclosed?
  rw [splitFirst_append_right ho shape.opener_ne_nil]
  cases splitFirst shape.opener f with
  | none => rfl
  | some p =>
    obtain ⟨x, inside⟩ := p
    simp only [Option.map_some, Option.bind_eq_bind, Option.bind_some]
    rw [splitLast_append_right hc shape.closer_ne_nil]
    cases splitLast shape.closer inside <;> rfl

/-- The brackets around a label enclose it, if no opener stands before them. -/
theorem enclosed?_brackets {shape : Shape} {a : List CodePoint}
    (ha : ∀ c ∈ a, shape.opener.head? ≠ some c) (label : List CodePoint) :
    enclosed? shape (a ++ shape.opener ++ label ++ shape.closer) = some (strip label) := by
  rw [List.append_assoc, List.append_assoc, enclosed?_append_left ha]
  unfold enclosed?
  rw [splitFirst_append_self]
  simp only [Option.bind_eq_bind, Option.bind_some]
  rw [splitLast_of_suffix]
  rfl

/-- The shape of a fragment is the first that encloses a part of it. -/
theorem bracketed?_eq_some_iff {f l : List CodePoint} {shape : Shape} :
    bracketed? f = some (shape, l) ↔
      enclosed? shape f = some l ∧ ∀ s ∈ shape.earlier, ¬ s.Encloses f := by
  simp only [← enclosed?_eq_none_iff]
  unfold bracketed?
  cases shape <;> cases hs : enclosed? .state f <;> cases ha : enclosed? .action f <;>
    cases hc : enclosed? .choice f <;> simp [Shape.all, hs, ha, hc]

theorem bracketed?_eq_none_iff {f : List CodePoint} :
    bracketed? f = none ↔ ∀ s : Shape, ¬ s.Encloses f := by
  simp only [← enclosed?_eq_none_iff]
  unfold bracketed?
  rw [List.findSome?_eq_none_iff]
  constructor
  · intro h s
    simpa using h s (Shape.mem_all s)
  · intro h s _
    rw [h s]
    rfl

theorem bracketed?_congr {f g : List CodePoint} (h : ∀ s : Shape, enclosed? s f = enclosed? s g) :
    bracketed? f = bracketed? g := by
  unfold bracketed?
  congr 1
  funext s
  rw [h s]

/-! ## Padding -/

theorem isBlank_ne {c d : CodePoint} (hc : isBlank c = true) (hd : isBlank d = false) : d ≠ c := by
  rintro rfl
  rw [hc] at hd
  cases hd

theorem opener_head_ne_blank {shape : Shape} {c : CodePoint} (hc : isBlank c = true) :
    shape.opener.head? ≠ some c :=
  fun h => isBlank_ne hc (Shape.isBlank_opener c (List.mem_of_mem_head? h)) rfl

theorem mention_congr {f g : List CodePoint} (hs : strip f = strip g) (hb : bracketed? f = bracketed? g) :
    mention f = mention g := by
  unfold mention identifier
  rw [hs, hb]

/-- Blanks before a fragment do not matter. -/
theorem mention_append_left {pad : List CodePoint} (h : ∀ c ∈ pad, isBlank c = true) (f : List CodePoint) :
    mention (pad ++ f) = mention f :=
  mention_congr (strip_append_left h f) <| bracketed?_congr fun _ =>
    enclosed?_append_left (fun c hc => opener_head_ne_blank (h c hc)) f

/-- Blanks behind a fragment do not matter. -/
theorem mention_append_right {pad : List CodePoint} (h : ∀ c ∈ pad, isBlank c = true) (f : List CodePoint) :
    mention (f ++ pad) = mention f := by
  refine mention_congr (strip_append_right h f) (bracketed?_congr fun s => enclosed?_append_right ?_ ?_ f)
  · intro c hc hl
    exact isBlank_ne (h c hc) (Shape.isBlank_opener c (List.mem_of_mem_getLast? hl)) rfl
  · intro c hc hl
    exact isBlank_ne (h c hc) (Shape.isBlank_closer c (List.mem_of_mem_getLast? hl)) rfl

/-! ## Parts of a fragment -/

theorem orElse_cases {P : List CodePoint → Prop} {s t : List CodePoint} (hs : P s) (ht : P t) :
    P (orElse s t) := by
  unfold orElse
  split_ifs
  · exact ht
  · exact hs

theorem orElse_of_ne_nil {s : List CodePoint} (t : List CodePoint) (h : s ≠ []) : orElse s t = s := by
  unfold orElse
  rw [if_neg (by simpa using h)]

theorem orElse_eq_nil_iff {s t : List CodePoint} : orElse s t = [] ↔ s = [] ∧ t = [] := by
  unfold orElse
  cases s <;> simp

/-- A property of the run at the start, of the whole fragment and of all enclosed parts is a property of the
id and of the label. -/
theorem mention_parts {P : List CodePoint → Prop} {f : List CodePoint} (hi : P (identifier f))
    (hf : P (strip f)) (hl : ∀ s l, enclosed? s f = some l → P l) :
    P (mention f).id.toList ∧ P (mention f).label.toList := by
  unfold mention
  cases hb : bracketed? f with
  | none =>
    dsimp only
    exact ⟨orElse_cases hi hf, orElse_cases hi hf⟩
  | some p =>
    obtain ⟨s, l⟩ := p
    dsimp only
    have hpl : P l := hl s l (bracketed?_eq_some_iff.1 hb).1
    have hid := orElse_cases hi (orElse_cases hpl hf)
    exact ⟨hid, orElse_cases hpl hid⟩

theorem identifier_isInfix (f : List CodePoint) : identifier f <:+: f :=
  List.takeWhile_prefix _ |>.isInfix.trans (strip_isInfix f)

theorem endsIdentifier_of_mem_identifier {f : List CodePoint} {c : CodePoint} (hc : c ∈ identifier f) :
    endsIdentifier c = false := by
  have := List.mem_takeWhile_imp hc
  simpa using this

theorem endsIdentifier_of_isBlank {c : CodePoint} (h : isBlank c = true) : endsIdentifier c = true := by
  unfold endsIdentifier
  rw [h]
  rfl

theorem isBlank_of_not_endsIdentifier {c : CodePoint} (h : endsIdentifier c = false) : isBlank c = false := by
  by_contra hb
  rw [endsIdentifier_of_isBlank (by simpa using hb)] at h
  cases h

theorem enclosed?_isInfix {s : Shape} {f l : List CodePoint} (h : enclosed? s f = some l) : l <:+: f := by
  obtain ⟨a, b, c, rfl, rfl⟩ := eq_append_of_enclosed? h
  exact (strip_isInfix b).trans ⟨a ++ s.opener, s.closer ++ c, by simp⟩

/-- The id and the label of a node are parts of the fragment that mentions it. -/
theorem mention_isInfix (f : List CodePoint) :
    (mention f).id.toList <:+: f ∧ (mention f).label.toList <:+: f :=
  mention_parts (P := (· <:+: f)) (identifier_isInfix f) (strip_isInfix f) fun _ _ h => enclosed?_isInfix h

theorem strip_mention (f : List CodePoint) :
    strip (mention f).id.toList = (mention f).id.toList ∧
      strip (mention f).label.toList = (mention f).label.toList := by
  refine mention_parts (P := fun t => strip t = t) ?_ (strip_strip f) ?_
  · exact strip_of_no_blank fun c hc => isBlank_of_not_endsIdentifier (endsIdentifier_of_mem_identifier hc)
  · intro s l h
    obtain ⟨a, b, c, -, rfl⟩ := eq_append_of_enclosed? h
    exact strip_strip b

/-- The brackets that are looked for before those of the node enclose nothing in its label. -/
theorem earlier_label (f : List CodePoint) :
    ∀ s ∈ (mention f).shape.earlier, ¬ s.Encloses (mention f).label.toList := by
  have hf : ∀ s ∈ (mention f).shape.earlier, ¬ s.Encloses f := by
    unfold mention
    cases hb : bracketed? f with
    | none => intro s hs; cases hs
    | some p => exact (bracketed?_eq_some_iff.1 hb).2
  exact fun s hs he => hf s hs (he.mono (mention_isInfix f).2)

theorem bracketed?_of_strip_eq_nil {f : List CodePoint} (h : strip f = []) : bracketed? f = none := by
  rw [bracketed?_eq_none_iff]
  rintro s ⟨a, b, c, rfl⟩
  obtain ⟨d, op, hop⟩ := List.exists_cons_of_ne_nil s.opener_ne_nil
  have hd := strip_eq_nil_iff.1 h d (by simp [hop])
  rw [Shape.isBlank_opener d (hop ▸ List.mem_cons_self)] at hd
  cases hd

/-- Only a blank fragment mentions no node. -/
theorem mention_id_eq_empty_iff {f : List CodePoint} : (mention f).id = "" ↔ strip f = [] := by
  rw [← Text.toList_inj]
  constructor
  · intro h
    unfold mention at h
    cases hb : bracketed? f <;> rw [hb] at h <;>
      simp only [Text.toList_empty, orElse_eq_nil_iff] at h
    · exact h.2
    · exact h.2.2
  · intro h
    have hi : identifier f = [] := by rw [identifier, h]; rfl
    unfold mention
    rw [bracketed?_of_strip_eq_nil h, hi, h]
    rfl

/-- A node that is mentioned has a label. -/
theorem mention_label_ne_empty {f : List CodePoint} (h : (mention f).id ≠ "") : (mention f).label ≠ "" := by
  unfold mention at h ⊢
  cases hb : bracketed? f with
  | none =>
    rw [hb] at h
    exact h
  | some p =>
    rw [hb] at h
    simp only [ne_eq, ← Text.toList_inj, Text.toList_empty] at h ⊢
    intro hl
    exact h (orElse_eq_nil_iff.1 hl).2

/-! ## The shape and the label by themselves -/

theorem shape_of_bracketed? {f l : List CodePoint} {s : Shape} (h : bracketed? f = some (s, l)) : shape f = s := by
  unfold shape
  rw [h]

theorem label_of_bracketed? {f l : List CodePoint} {s : Shape} (h : bracketed? f = some (s, l)) :
    label f = orElse l (identifier f) := by
  unfold label
  rw [h]
  cases l <;> rfl

theorem label_of_bracketed?_eq_none {f : List CodePoint} (h : bracketed? f = none) : label f = identifier f := by
  unfold label
  rw [h]

theorem shape_mention (f : List CodePoint) : (mention f).shape = shape f := by
  unfold mention shape
  cases bracketed? f <;> rfl

/-- The label of the node that a fragment mentions is the label in the fragment or, if there is none, the whole
fragment. -/
theorem label_mention (f : List CodePoint) : (mention f).label = Text.ofList (orElse (label f) (strip f)) := by
  cases hb : bracketed? f with
  | none =>
    rw [label_of_bracketed?_eq_none hb]
    unfold mention
    rw [hb]
  | some p =>
    obtain ⟨s, l⟩ := p
    rw [label_of_bracketed? hb]
    unfold mention
    rw [hb]
    -- with an empty label both are the id, or else the whole fragment
    cases l <;> rfl

/-- A fragment that is not blank, but has neither an id at its start nor a text in its brackets. -/
def Nameless (f : List CodePoint) : Prop :=
  strip f ≠ [] ∧ identifier f = [] ∧ ∀ s l, bracketed? f = some (s, l) → l = []

theorem nameless_iff {f : List CodePoint} : Nameless f ↔ strip f ≠ [] ∧ label f = [] := by
  refine and_congr_right fun _ => ?_
  cases hb : bracketed? f with
  | none =>
    rw [label_of_bracketed?_eq_none hb]
    exact and_iff_left nofun
  | some p =>
    obtain ⟨s, l⟩ := p
    rw [label_of_bracketed? hb, orElse_eq_nil_iff, and_comm]
    refine and_congr_left fun _ => ⟨fun h => h s l rfl, fun hl s' l' h => ?_⟩
    obtain ⟨rfl, rfl⟩ := Prod.mk.inj (Option.some.inj h)
    exact hl

/-- The shape in a fragment is that of the node it mentions. The label is too, unless the fragment is nameless: then
there is none in it, and the node is labelled with the whole fragment. -/
theorem shape_and_label_eq_mention (f : List CodePoint) :
    shape f = (mention f).shape ∧
    (mention f).label = Text.ofList (orElse (label f) (strip f)) ∧
    (Text.ofList (label f) = (mention f).label ↔ ¬ Nameless f) := by
  refine ⟨(shape_mention f).symm, label_mention f, ?_⟩
  rw [label_mention, Text.ofList_inj, nameless_iff]
  cases hl : label f with
  | nil =>
    show [] = strip f ↔ ¬ (strip f ≠ [] ∧ ([] : List CodePoint) = [])
    rw [and_iff_left rfl, not_not, eq_comm]
  | cons c l => exact iff_of_true rfl fun h => nomatch h.2

/-- Brackets with nothing in them and nothing before them. -/
theorem not_label_eq_mention : Text.ofList (label "[]".toList) ≠ (mention "[]".toList).label := by
  decide +kernel

/-! ## Reading back -/

/-- One run without blanks and without opening brackets. -/
def Plain (id : List CodePoint) : Prop := id ≠ [] ∧ ∀ c ∈ id, endsIdentifier c = false

instance : DecidablePred Plain := fun id =>
  inferInstanceAs (Decidable (id ≠ [] ∧ ∀ c ∈ id, endsIdentifier c = false))

theorem Plain.strip_eq {id : List CodePoint} (h : Plain id) : strip id = id :=
  strip_of_no_blank fun c hc => isBlank_of_not_endsIdentifier (h.2 c hc)

/-- What can stand in an id starts no bracket. -/
theorem opener_head_ne_of_mem {id : List CodePoint} (h : ∀ c ∈ id, endsIdentifier c = false) (s : Shape) :
    ∀ c ∈ id, s.opener.head? ≠ some c := by
  intro c hc hs
  have := h c hc
  rw [Shape.endsIdentifier_opener c (List.mem_of_mem_head? hs)] at this
  cases this

theorem identifier_plain {id : List CodePoint} (h : Plain id) : identifier id = id := by
  unfold identifier
  rw [h.strip_eq, List.takeWhile_eq_self_iff]
  intro c hc
  simp [h.2 c hc]

/-- A plain id alone mentions a node of the first shape that has its id for a label. -/
theorem mention_plain {id : List CodePoint} (h : Plain id) :
    mention id = ⟨Text.ofList id, .state, Text.ofList id⟩ := by
  have hb : bracketed? id = none := by
    rw [bracketed?_eq_none_iff]
    rintro s ⟨a, b, c, hid⟩
    obtain ⟨d, op, hop⟩ := List.exists_cons_of_ne_nil s.opener_ne_nil
    exact opener_head_ne_of_mem h.2 s d (by simp [hid, hop]) (by rw [hop]; rfl)
  have ho : orElse id id = id := orElse_cases (P := (· = id)) rfl rfl
  unfold mention
  rw [hb, identifier_plain h, h.strip_eq]
  simp only [ho]

theorem toList_render (m : Mention) :
    m.render.toList = m.id.toList ++ m.shape.opener ++ m.label.toList ++ m.shape.closer := by
  unfold Mention.render
  simp

theorem head?_append_opener {id : List CodePoint} (h : ∀ c, id.head? = some c → isBlank c = false)
    (s : Shape) (rest : List CodePoint) {c : CodePoint} (hc : (id ++ s.opener ++ rest).head? = some c) :
    isBlank c = false := by
  cases id with
  | nil =>
    obtain ⟨d, op, hop⟩ := List.exists_cons_of_ne_nil s.opener_ne_nil
    rw [hop] at hc
    obtain rfl := Option.some.inj hc
    exact Shape.isBlank_opener _ (hop ▸ List.mem_cons_self)
  | cons d id => exact h c hc

theorem getLast?_append_closer (s : Shape) (rest : List CodePoint) {c : CodePoint}
    (hc : (rest ++ s.closer).getLast? = some c) : isBlank c = false := by
  rw [List.getLast?_append_of_ne_nil _ s.closer_ne_nil] at hc
  exact Shape.isBlank_closer c (List.mem_of_mem_getLast? hc)

/-- A declaration neither starts nor ends with a blank. -/
theorem strip_render {m : Mention} (h : strip m.id.toList = m.id.toList) :
    strip m.render.toList = m.render.toList := by
  rw [toList_render]
  refine strip_eq_self (fun c hc => ?_) (fun c hc => getLast?_append_closer _ _ hc)
  rw [List.append_assoc] at hc
  exact head?_append_opener (fun d hd => head?_strip (h ▸ hd)) _ _ hc

/-- Earlier brackets enclose in a declaration what they enclose in its label. -/
theorem enclosed?_render {m : Mention} (hid : ∀ c ∈ m.id.toList, endsIdentifier c = false) {s : Shape}
    (hs : s ∈ m.shape.earlier) : enclosed? s m.render.toList = enclosed? s m.label.toList := by
  rw [toList_render, List.append_assoc, enclosed?_append_left,
    enclosed?_append_right Shape.opener_getLast_ne (Shape.closer_getLast_ne hs)]
  intro c hc
  rcases List.mem_append.1 hc with hc | hc
  · exact opener_head_ne_of_mem hid s c hc
  · exact Shape.opener_head_ne hs c hc

/-- The brackets of a declaration are those around its label, unless earlier ones enclose a part of the label. -/
theorem bracketed?_render {m : Mention} (hid : ∀ c ∈ m.id.toList, endsIdentifier c = false)
    (hl : strip m.label.toList = m.label.toList)
    (he : ∀ s ∈ m.shape.earlier, ¬ s.Encloses m.label.toList) :
    bracketed? m.render.toList = some (m.shape, m.label.toList) := by
  rw [bracketed?_eq_some_iff]
  constructor
  · rw [toList_render, enclosed?_brackets (opener_head_ne_of_mem hid _), hl]
  · intro s hs
    rw [← enclosed?_eq_none_iff, enclosed?_render hid hs, enclosed?_eq_none_iff]
    exact he s hs

/-- A declaration with a plain id says what it was made of, if no earlier brackets enclose a part of the
label. -/
theorem mention_render {m : Mention} (hid : Plain m.id.toList) (hne : m.label ≠ "")
    (hl : strip m.label.toList = m.label.toList)
    (he : ∀ s ∈ m.shape.earlier, ¬ s.Encloses m.label.toList) : mention m.render.toList = m := by
  have hb := bracketed?_render hid.2 hl he
  have hi : identifier m.render.toList = m.id.toList := by
    obtain ⟨d, op, hop⟩ := List.exists_cons_of_ne_nil m.shape.opener_ne_nil
    have hd : endsIdentifier d = true := Shape.endsIdentifier_opener d (hop ▸ List.mem_cons_self)
    unfold identifier
    rw [strip_render hid.strip_eq, toList_render, hop, List.append_assoc, List.append_assoc,
      List.takeWhile_append_of_pos (fun c hc => by simp [hid.2 c hc])]
    simp [hd]
  have hne' : m.label.toList ≠ [] := fun h => hne (Text.toList_inj.1 h)
  unfold mention
  rw [hb, hi]
  simp only [orElse_of_ne_nil _ hid.1, orElse_of_ne_nil _ hne', Text.ofList_toList]

end Fragment

end Flowchart
