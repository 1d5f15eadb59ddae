import Flowchart.Proofs.Json.Parsed
import Flowchart.Proofs.Json.PrintedText
import Flowchart.Proofs.Json.StringLiteral

/-!
# Printed values are read back

A plain value is read back from its text, provided that every number in it is (`readsAs_of_numbers`). If numbers
are read as other values, these take their places (`readsAs_mapNumbers`). A text is read back exactly if it is joined
(`readsBack_text_iff`). The text of a value is read wherever it
stands, at every depth and in front of everything that does not go on a number; this is what carries through lists
and tables.
-/

namespace Flowchart.Json

variable {v w : Value} {f : Value → Value} {s rest : List Char} {b : Nat}

/-- Whether a value is read back from its text. -/
def ReadsBack (v : Value) : Prop := parse (print v) = .ok v

instance (v : Value) : Decidable (ReadsBack v) := inferInstanceAs (Decidable (parse (print v) = .ok v))

/-- Whether the text of `v` is read as `w` wherever it stands. Twice the length of the text bounds the depth of the
calls. -/
def ReadsAs (v w : Value) : Prop :=
  ∀ depth bound rest, Stops rest → 2 * (printAt depth v).length ≤ bound →
    valuePart bound (printAt depth v ++ rest) = .ok (w, rest)

/-! ## White space -/

theorem skipSpace_cons {c : Char} (h : isSpace c = false) : skipSpace (c :: s) = c :: s :=
  List.dropWhile_cons_of_neg (by simp [h])

theorem skipSpace_newLine (depth : Nat) (s : List Char) : skipSpace (newLine depth ++ s) = skipSpace s := by
  have hblanks : ∀ n, skipSpace (List.replicate n ' ' ++ s) = skipSpace s := by
    intro n
    induction n with
    | zero => rfl
    | succ n ih => exact ih
  exact hblanks (2 * depth)

/-! ## The start of a value -/

/-- Whether a character starts a value. -/
def startsValue (c : Char) : Bool := startsScalar c || ['\x22', '[', '\x7b'].contains c

theorem ne_of_bool {p : Char → Bool} {c d : Char} (hc : p c = true) (hd : p d = false) : c ≠ d := by
  rintro rfl
  rw [hd] at hc
  cases hc

theorem valuePart_eq_scalar {c : Char} (hquote : c ≠ '\x22') (hlist : c ≠ '[') (htable : c ≠ '\x7b') :
    valuePart (b + 1) (c :: s) = scalar (c :: s) := by
  rw [valuePart]
  · exact fun rest h => hquote (List.cons.inj h).1
  · exact fun rest h => hlist (List.cons.inj h).1
  · exact fun rest h => htable (List.cons.inj h).1

theorem startsValue_of_valuePart {r : Value × List Char} (h : valuePart b s = .ok r) :
    ∃ c t, s = c :: t ∧ startsValue c = true := by
  cases b with
  | zero => cases h
  | succ b =>
    unfold valuePart at h
    split at h
    · exact ⟨_, _, rfl, rfl⟩
    · exact ⟨_, _, rfl, rfl⟩
    · exact ⟨_, _, rfl, rfl⟩
    · obtain ⟨c, t, rfl, hc⟩ := startsScalar_of_scalar h
      exact ⟨c, t, rfl, by rw [startsValue, hc, Bool.true_or]⟩

theorem isSpace_of_startsValue {c : Char} (h : startsValue c = true) : isSpace c = false := by
  unfold isSpace
  simp only [Bool.or_eq_false_iff, beq_eq_false_iff_ne]
  exact ⟨⟨⟨ne_of_bool h rfl, ne_of_bool h rfl⟩, ne_of_bool h rfl⟩, ne_of_bool h rfl⟩

theorem startsValue_of_itemsPart {r : List Value × List Char} (h : itemsPart b s = .ok r) :
    ∃ c t, s = c :: t ∧ startsValue c = true := by
  cases b with
  | zero => cases h
  | succ b =>
    rw [itemsPart] at h
    rcases hv : valuePart b s with f | r'
    · rw [hv] at h
      cases h
    · exact startsValue_of_valuePart hv

theorem skipSpace_eq_self (h : ∃ c t, s = c :: t ∧ startsValue c = true) : skipSpace s = s := by
  obtain ⟨c, t, rfl, hc⟩ := h
  exact skipSpace_cons (isSpace_of_startsValue hc)

/-! ## Lists -/

theorem valuePart_list {c : Char} (hs : skipSpace s = c :: rest) (hc : c ≠ ']') :
    valuePart (b + 1) ('[' :: s) =
      (itemsPart b (c :: rest)).map fun (items, rest) => (.list items, rest) := by
  rw [valuePart, hs]
  split
  · next h => exact absurd (List.cons.inj h).1 hc
  · rfl

theorem itemsPart_last (hv : valuePart b s = .ok (v, rest)) {t : List Char} (ht : skipSpace rest = ']' :: t) :
    itemsPart (b + 1) s = .ok ([v], t) := by
  rw [itemsPart, hv, ok_bind]
  dsimp only
  rw [ht]
  rfl

theorem itemsPart_more (hv : valuePart b s = .ok (v, ',' :: rest)) :
    itemsPart (b + 1) s = (itemsPart b (skipSpace rest)).map fun (vs, rest) => (v :: vs, rest) := by
  rw [itemsPart, hv, ok_bind]
  rfl

/-- The items of a list are read up to the bracket that closes it. -/
theorem itemsPart_printed {items : List Value} (h : ∀ v ∈ items, ReadsAs v (f v)) (hne : items ≠ [])
    (depth outer bound : Nat) (rest : List Char)
    (hbound : 2 * ((',' :: newLine depth).intercalate (items.map (printAt depth))).length + 1 ≤ bound) :
    itemsPart bound ((',' :: newLine depth).intercalate (items.map (printAt depth)) ++
      (newLine outer ++ ']' :: rest)) = .ok (items.map f, rest) := by
  induction items generalizing bound with
  | nil => exact absurd rfl hne
  | cons v vs ih =>
    obtain ⟨b, rfl⟩ : ∃ b, bound = b + 1 := ⟨bound - 1, by omega⟩
    rw [List.forall_mem_cons] at h
    cases vs with
    | nil =>
      rw [List.map_cons, List.map_nil, List.intercalate_singleton] at hbound ⊢
      have hv := h.1 depth b (newLine outer ++ ']' :: rest) (stops_cons.2 rfl) (by omega)
      exact itemsPart_last hv ((skipSpace_newLine outer _).trans (skipSpace_cons rfl))
    | cons w vs =>
      rw [List.map_cons, List.map_cons, List.intercalate_cons_cons, ← List.map_cons] at hbound ⊢
      simp only [List.length_append, List.length_cons] at hbound
      have hvs := ih h.2 (by simp) b (by omega)
      have hv := h.1 depth b (',' :: (newLine depth ++
        ((',' :: newLine depth).intercalate ((w :: vs).map (printAt depth)) ++ (newLine outer ++ ']' :: rest))))
        (stops_cons.2 rfl) (by omega)
      simp only [List.append_assoc, List.cons_append]
      rw [itemsPart_more hv, skipSpace_newLine, skipSpace_eq_self (startsValue_of_itemsPart hvs), hvs]
      rfl

theorem readsAs_list {items : List Value} (h : ∀ v ∈ items, ReadsAs v (f v)) :
    ReadsAs (.list items) (.list (items.map f)) := by
  intro depth bound rest _ hbound
  by_cases hne : items = []
  · subst hne
    obtain ⟨b, rfl⟩ : ∃ b, bound = b + 1 := ⟨bound - 1, by simp [printAt, printItems, enclose] at hbound; omega⟩
    rfl
  · have htext : printAt depth (.list items) = '[' :: (newLine (depth + 1) ++
        ((',' :: newLine (depth + 1)).intercalate (items.map (printAt (depth + 1))) ++
          (newLine depth ++ [']']))) := by
      show enclose '[' ']' depth (printItems (depth + 1) items) = _
      rw [printItems_eq, enclose, if_neg (by simpa using hne)]
      simp only [List.cons_append, List.append_assoc]
    rw [htext] at hbound ⊢
    simp only [List.length_cons, List.length_append] at hbound
    obtain ⟨b, rfl⟩ : ∃ b, bound = b + 1 := ⟨bound - 1, by omega⟩
    have hitems := itemsPart_printed h hne (depth + 1) depth b rest (by omega)
    obtain ⟨c, t, hct, hc⟩ := startsValue_of_itemsPart hitems
    simp only [List.cons_append, List.append_assoc, List.nil_append]
    rw [hct] at hitems ⊢
    rw [valuePart_list ((skipSpace_newLine _ _).trans (skipSpace_eq_self ⟨c, t, rfl, hc⟩))
      (ne_of_bool hc rfl), hitems]
    rfl

/-! ## Tables -/

theorem propertyPart_printed (name : Text) (s : List Char) :
    propertyPart (printText name ++ ':' :: ' ' :: s) = .ok (name.rejoined, skipSpace s) := by
  have htext : printText name ++ ':' :: ' ' :: s =
      '\x22' :: ((name.toList.flatMap CodePoint.units).flatMap escapedUnit ++ '\x22' :: ':' :: ' ' :: s) := by
    rw [printText, List.cons_append, List.cons_append, List.append_assoc]
    rfl
  rw [htext, propertyPart, stringPart_printed, ok_bind]
  rfl

theorem startsValue_of_entriesPart {t : Value.Table} {r : Value.Table × List Char}
    (h : entriesPart b t s = .ok r) : ∃ c t, s = c :: t ∧ startsValue c = true := by
  cases b with
  | zero => cases h
  | succ b =>
    rw [entriesPart] at h
    unfold propertyPart at h
    split at h
    · exact ⟨_, _, rfl, rfl⟩
    · cases h

theorem valuePart_table {c : Char} (hs : skipSpace s = c :: rest) (hc : c ≠ '\x7d') :
    valuePart (b + 1) ('\x7b' :: s) =
      (entriesPart b [] (c :: rest)).map fun (t, rest) => (.table t, rest) := by
  rw [valuePart, hs]
  split
  · next h => exact absurd (List.cons.inj h).1 hc
  · rfl

theorem entriesPart_last {done : Value.Table} {name : Text} (hname : Text.isJoined name.toList = true)
    (hv : valuePart b s = .ok (v, rest)) (hnew : done.get? name = none) {r : List Char}
    (hr : skipSpace rest = '\x7d' :: r) :
    entriesPart (b + 1) done (printText name ++ ':' :: ' ' :: s) = .ok (done ++ [(.text name, v)], r) := by
  rw [entriesPart, propertyPart_printed, Text.rejoined_eq_iff.2 hname, ok_bind]
  dsimp only
  rw [skipSpace_eq_self (startsValue_of_valuePart hv), hv, ok_bind]
  dsimp only
  rw [hr, Value.Table.insert_of_get?_eq_none hnew]
  rfl

theorem entriesPart_more {done : Value.Table} {name : Text} (hname : Text.isJoined name.toList = true)
    (hv : valuePart b s = .ok (v, ',' :: rest)) (hnew : done.get? name = none) :
    entriesPart (b + 1) done (printText name ++ ':' :: ' ' :: s) =
      entriesPart b (done ++ [(.text name, v)]) (skipSpace rest) := by
  rw [entriesPart, propertyPart_printed, Text.rejoined_eq_iff.2 hname, ok_bind]
  dsimp only
  rw [skipSpace_eq_self (startsValue_of_valuePart hv), hv, ok_bind]
  dsimp only
  rw [Value.Table.insert_of_get?_eq_none hnew]
  rfl

theorem printEntries_cons (depth : Nat) (name : Text) (v : Value) (t : Value.Table) :
    printEntries depth ((.text name, v) :: t) =
      (printText name ++ ':' :: ' ' :: printAt depth v) :: printEntries depth t := rfl

/-- The entries of a table are read up to the bracket that closes it, and come last in order. -/
theorem entriesPart_printed {t : Value.Table} (h : ∀ e ∈ t, ReadsAs e.2 (f e.2)) (hne : t ≠ [])
    (hplain : t.isPlain = true) {done : Value.Table} (hdone : ∀ name v, (.text name, v) ∈ t → done.get? name = none)
    (depth outer bound : Nat) (rest : List Char)
    (hbound : 2 * ((',' :: newLine depth).intercalate (printEntries depth t)).length + 1 ≤ bound) :
    entriesPart bound done ((',' :: newLine depth).intercalate (printEntries depth t) ++
      (newLine outer ++ '\x7d' :: rest)) = .ok (done ++ t.map fun e => (e.1, f e.2), rest) := by
  induction t generalizing done bound with
  | nil => exact absurd rfl hne
  | cons e t ih =>
    obtain ⟨k, v⟩ := e
    obtain ⟨b, rfl⟩ : ∃ b, bound = b + 1 := ⟨bound - 1, by omega⟩
    obtain ⟨name, rfl, hname, hlater, -, hplain⟩ := Value.Table.isPlain_cons.1 hplain
    rw [List.forall_mem_cons] at h
    have hread : ReadsAs v (f v) := h.1
    have hnew : done.get? name = none := hdone name v List.mem_cons_self
    rw [printEntries_cons] at hbound ⊢
    cases t with
    | nil =>
      rw [printEntries, List.intercalate_singleton] at hbound ⊢
      simp only [List.length_append, List.length_cons] at hbound
      have hv := hread depth b (newLine outer ++ '\x7d' :: rest) (stops_cons.2 rfl) (by omega)
      simp only [List.append_assoc, List.cons_append]
      exact entriesPart_last hname hv hnew ((skipSpace_newLine outer _).trans (skipSpace_cons rfl))
    | cons f' t =>
      have hmore : ∃ p ps, printEntries depth (f' :: t) = p :: ps := ⟨_, _, rfl⟩
      obtain ⟨p, ps, hps⟩ := hmore
      rw [hps, List.intercalate_cons_cons, ← hps] at hbound ⊢
      simp only [List.length_append, List.length_cons] at hbound
      have hdone' : ∀ other u, (.text other, u) ∈ f' :: t →
          Value.Table.get? (done ++ [(.text name, f v)]) other = none := by
        intro other u hu
        have hne : other ≠ name := by
          rintro rfl
          simpa using Value.Table.get?_eq_none_iff.1 hlater _ hu
        rw [Value.Table.get?_concat_of_ne hne]
        exact hdone other u (List.mem_cons_of_mem _ hu)
      have ht := ih h.2 (by simp) hplain hdone' b (by omega)
      have hv := hread depth b (',' :: (newLine depth ++
        ((',' :: newLine depth).intercalate (printEntries depth (f' :: t)) ++ (newLine outer ++ '\x7d' :: rest))))
        (stops_cons.2 rfl) (by omega)
      simp only [List.append_assoc, List.cons_append]
      rw [entriesPart_more hname hv hnew, skipSpace_newLine, skipSpace_eq_self (startsValue_of_entriesPart ht), ht,
        List.append_assoc]
      rfl

theorem readsAs_table {t : Value.Table} (hplain : t.isPlain = true) (h : ∀ e ∈ t, ReadsAs e.2 (f e.2)) :
    ReadsAs (.table t) (.table (t.map fun e => (e.1, f e.2))) := by
  intro depth bound rest _ hbound
  by_cases hne : t = []
  · subst hne
    obtain ⟨b, rfl⟩ : ∃ b, bound = b + 1 := ⟨bound - 1, by simp [printAt, printEntries, enclose] at hbound; omega⟩
    rfl
  · have htext : printAt depth (.table t) = '\x7b' :: (newLine (depth + 1) ++
        ((',' :: newLine (depth + 1)).intercalate (printEntries (depth + 1) t) ++
          (newLine depth ++ ['\x7d']))) := by
      show enclose '\x7b' '\x7d' depth (printEntries (depth + 1) t) = _
      rw [enclose, if_neg (by rw [printEntries_eq]; simpa using hne)]
      simp only [List.cons_append, List.append_assoc]
    rw [htext] at hbound ⊢
    simp only [List.length_cons, List.length_append] at hbound
    obtain ⟨b, rfl⟩ : ∃ b, bound = b + 1 := ⟨bound - 1, by omega⟩
    have ht := entriesPart_printed h hne hplain (fun _ _ _ => Value.Table.get?_nil _) (depth + 1) depth b rest
      (by omega)
    obtain ⟨c, s, hcs, hc⟩ := startsValue_of_entriesPart ht
    simp only [List.cons_append, List.append_assoc, List.nil_append]
    rw [hcs] at ht ⊢
    rw [valuePart_table ((skipSpace_newLine _ _).trans (skipSpace_eq_self ⟨c, s, rfl, hc⟩))
      (ne_of_bool hc rfl), ht]
    rfl

/-! ## Numbers -/

/-- A number that is read back as a document is read as a scalar. -/
theorem scalar_of_readsBack (htext : (print v).all inScalar = true) (h : ReadsBack v) :
    scalar (print v) = .ok (v, []) := by
  have hskip : ∀ t, t <:+ print v → skipSpace t = t := by
    intro t ht
    cases t with
    | nil => rfl
    | cons c t =>
      exact skipSpace_cons (isSpace_of_inScalar (List.all_eq_true.1 htext c (ht.subset List.mem_cons_self)))
  obtain ⟨rest, hvalue, hrest⟩ := of_parse h
  have hscalar : valuePart (2 * (print v).length + 2) (print v) = scalar (print v) := by
    cases hs : print v with
    | nil => rfl
    | cons c s =>
      rw [hs, List.all_cons, Bool.and_eq_true] at htext
      exact valuePart_eq_scalar (ne_of_bool htext.1 rfl) (ne_of_bool htext.1 rfl) (ne_of_bool htext.1 rfl)
  rw [hskip _ (List.suffix_refl _), hscalar] at hvalue
  rw [hskip rest (suffix_of_scalar hvalue)] at hrest
  rw [hvalue, hrest]

theorem readsAs_of_scalar (htext : ∀ depth, printAt depth v = print v)
    (h : scalar (print v) = .ok (w, [])) : ReadsAs v w := by
  intro depth bound rest hrest hbound
  rw [htext] at hbound ⊢
  obtain ⟨c, s, hs, hc⟩ := startsScalar_of_scalar h
  obtain ⟨b, rfl⟩ : ∃ b, bound = b + 1 := ⟨bound - 1, by rw [hs, List.length_cons] at hbound; omega⟩
  have happend := scalar_append hrest h
  rw [hs, List.cons_append] at happend ⊢
  rw [valuePart_eq_scalar (ne_of_bool hc rfl) (ne_of_bool hc rfl) (ne_of_bool hc rfl), happend]

/-! ## All values -/

/-- A text is read with its halves of characters joined. -/
theorem readsAs_text (s : Text) : ReadsAs (.text s) (.text s.rejoined) := by
  intro depth bound rest _ hbound
  have htext : printAt depth (.text s) ++ rest =
      '\x22' :: ((s.toList.flatMap CodePoint.units).flatMap escapedUnit ++ '\x22' :: rest) := by
    show printText s ++ rest = _
    rw [printText, List.cons_append, List.cons_append, List.append_assoc]
    rfl
  obtain ⟨b, rfl⟩ : ∃ b, bound = b + 1 := ⟨bound - 1, by simp [printAt, printText] at hbound; omega⟩
  rw [htext, valuePart, stringPart_printed]
  rfl

/-- A plain value is read wherever its text stands, with what its numbers are read as in their places. -/
theorem readsAs_mapNumbers (hplain : v.isPlain = true) (h : ∀ n ∈ v.numbers, ReadsAs n (f n)) :
    ReadsAs v (v.mapNumbers f) := by
  induction v with
  | null => exact readsAs_of_scalar (fun _ => rfl) rfl
  | bool b => cases b <;> exact readsAs_of_scalar (fun _ => rfl) rfl
  | int n => exact h _ (List.mem_singleton_self _)
  | float x => exact h _ (List.mem_singleton_self _)
  | text s =>
    have hread := readsAs_text s
    rwa [Text.rejoined_eq_iff.2 hplain] at hread
  | list items ih =>
    rw [Value.mapNumbers_list]
    exact readsAs_list fun v hv => ih v hv (Value.isPlain_list.1 hplain v hv) fun n hn =>
      h n (Value.mem_numbers_list.2 ⟨v, hv, hn⟩)
  | tuple items => cases hplain
  | table t ih =>
    rw [Value.mapNumbers_table]
    exact readsAs_table hplain fun e he => (ih e he).2 (Value.Table.isPlain_of_mem hplain he) fun n hn =>
      h n (Value.mem_numbers_table.2 ⟨e, he, hn⟩)

/-- What is read wherever it stands is read as a document. -/
theorem ReadsAs.parse (h : ReadsAs v w) : Json.parse (print v) = .ok w := by
  have hvalue := h 0 (2 * (print v).length + 2) [] stops_nil (Nat.le_add_right _ 2)
  rw [List.append_nil] at hvalue
  change valuePart (2 * (print v).length + 2) (print v) = .ok (w, []) at hvalue
  have hmark : (print v).head? ≠ some '\uFEFF' := by
    obtain ⟨c, s, hs, hc⟩ := startsValue_of_valuePart hvalue
    rw [hs]
    exact fun h => ne_of_bool hc rfl (Option.some.inj h)
  unfold Json.parse document
  rw [if_neg (by simpa using hmark), skipSpace_eq_self (startsValue_of_valuePart hvalue), hvalue]
  rfl

/-- A text is read back exactly if it is joined. -/
theorem readsBack_text_iff {s : Text} : ReadsBack (.text s) ↔ Text.isJoined s.toList = true := by
  rw [ReadsBack, (readsAs_text s).parse, Except.ok.injEq, Value.text.injEq, Text.rejoined_eq_iff]

/-- A number that is read back as a document is read wherever it stands. -/
theorem readsAs_of_readsBack {n : Value} (hn : n ∈ v.numbers) (h : ReadsBack n) : ReadsAs n n := by
  obtain ⟨m, rfl⟩ | ⟨x, rfl⟩ := Value.of_mem_numbers hn
  · exact readsAs_of_scalar (fun _ => rfl) (scalar_of_readsBack (inScalar_of_all (all_signedDigits m)) h)
  · exact readsAs_of_scalar (fun _ => rfl) (scalar_of_readsBack (all_render x) h)

/-- A plain value is read wherever its text stands if its numbers are read back. -/
theorem readsAs_of_numbers (hplain : v.isPlain = true) (h : ∀ n ∈ v.numbers, ReadsBack n) : ReadsAs v v := by
  have hread := readsAs_mapNumbers (f := id) hplain fun n hn => readsAs_of_readsBack hn (h n hn)
  rwa [Value.mapNumbers_id] at hread

end Flowchart.Json
