import XmlAdvisor.Proofs.TagRuns
import XmlAdvisor.Proofs.TagScans
import XmlAdvisor.Proofs.TokenSpellings

/-!
# Texts with another value

What is read of a text up to the quotation mark in front of a value does not depend on the value,
and what is said behind it in the same start tag does not either.  So if another value is put in its
place, the tokens in front stay as they are, and the attribute says the other value.

* `fitsBetween` — texts that can stand as values between two marks.
* `Scan.exists_of_tagPart` — an attribute inside a tag, as it is read with its value and with any
  other.
* **`exists_tokens_revalued`** — the tokens of a text with another value.
-/

namespace XmlAdvisor

/-- Whether a text can stand as a value between two marks. -/
def fitsBetween (mark : Char) (value : List Char) : Bool :=
  value.all fun x => isDocumentChar x && x != mark && x != '<'

/-! ## Parts of a tag -/

namespace Scan

variable {c c' : Cursor} {key : QualifiedName} {value : String} {nameSpan valueSpan span : Span}

/-- What is read of an attribute: its name, an equals sign, and its value between two marks. -/
lemma parts_of_tagAttribute
    (h : tagAttribute c = .ok (some (.attribute key value nameSpan valueSpan span), c')) :
    ∃ c₁ c₂ mark, qualifiedName c = .ok (key, c₁) ∧ equals c₁ = .ok ((), c₂) ∧
      (mark = '"' ∨ mark = '\'') ∧ c₂.rest = mark :: (value.toList ++ mark :: c'.rest) ∧
      nameSpan = ⟨c.offset, c₁.offset⟩ ∧
      valueSpan = ⟨c₂.offset + 1, c₂.offset + 1 + value.toList.length⟩ := by
  obtain ⟨key, c₁, c₂, mark, c₃, cs, c₄, hkey, hequals, hquote, hvalue, hend, htoken⟩ :=
    tagAttribute_ok h
  cases htoken
  obtain ⟨hmark, hopen, rfl⟩ := quote_ok hquote
  obtain ⟨⟨behind, hbehind⟩, -, rfl⟩ := content_ok (p := fun _ => True) hvalue fun _ _ _ => trivial
  obtain ⟨hclose, rfl⟩ := char_ok hend
  have hcut : ((c₂.advance 1).advance cs.length).rest = behind := by
    rw [Cursor.advance, ← hbehind]
    exact List.drop_left
  have hrest : behind = mark :: (((c₂.advance 1).advance cs.length).advance 1).rest := by
    rw [← Cursor.rest_of_head? hclose, hcut]
  refine ⟨c₁, c₂, mark, hkey, hequals, hmark, ?_, rfl, ?_⟩
  · rw [String.toList_ofList, ← hrest, hbehind]
    exact Cursor.rest_of_head? hopen
  · rw [String.toList_ofList]
    rfl

/-- What is read of an attribute inside a tag begins with a blank. -/
lemma spaces_of_tagPart
    (h : tagPart c = .ok (some (.attribute key value nameSpan valueSpan span), c')) :
    ∃ x r c₁, c.rest = x :: r ∧ isXmlSpace x = true ∧ spaces c = .ok ((), c₁) ∧
      c₁.rest.head? ≠ some '/' ∧ c₁.rest.head? ≠ some '>' ∧
      tagAttribute c₁ = .ok (some (.attribute key value nameSpan valueSpan span), c') := by
  cases tagPart_ok h with
  | selfClose _ _ htoken => cases htoken
  | close _ _ htoken => cases htoken
  | «attribute» hslash hclose hblank hread =>
      obtain ⟨x, hx, hspace⟩ := (Option.any_eq_true ..).mp hblank
      obtain ⟨r, hr⟩ := List.head?_eq_some_iff.mp hx
      exact ⟨x, r, _, hr, hspace, rfl, hslash, hclose, hread⟩

/-- **An attribute inside a tag is read in the same way with any other value** that fits between its
marks, and whatever comes behind it. -/
lemma exists_of_tagPart
    (h : tagPart c = .ok (some (.attribute key value nameSpan valueSpan span), c')) :
    ∃ (lead : List Char) (mark : Char), (mark = '"' ∨ mark = '\'') ∧ [mark] <:+ lead ∧
      c.rest = lead ++ (value.toList ++ mark :: c'.rest) ∧
      valueSpan = ⟨c.offset + lead.length, c.offset + lead.length + value.toList.length⟩ ∧
      ∀ (value' : String) (Y : List Char), fitsBetween mark value'.toList = true → ∃ span' o,
        tagPart ⟨c.offset, lead ++ (value'.toList ++ mark :: Y)⟩ =
        .ok (some (.attribute key value' nameSpan
          ⟨c.offset + lead.length, c.offset + lead.length + value'.toList.length⟩ span'),
            ⟨o, Y⟩) := by
  obtain ⟨x, r, c₁, hc, hx, hspaces, hslash, hclose, hread⟩ := spaces_of_tagPart h
  obtain ⟨c₂, c₃, mark, hkey, hequals, hmark, hrest, rfl, rfl⟩ := parts_of_tagAttribute hread
  obtain ⟨⟨n, hn⟩, -⟩ := Yields.andThen spaces_advances
    (fun _ => Yields.andThen qualifiedName_advances
    fun _ => equals_advances) c () c₃ ((bind_of_ok hspaces).trans ((bind_of_ok hkey).trans hequals))
  have hsplit : c.rest = (c.rest.take n ++ [mark]) ++ (value.toList ++ mark :: c'.rest) := by
    rw [List.append_assoc, List.singleton_append, ← hrest, hn]
    exact (List.take_append_drop n c.rest).symm
  have hlength : c.offset + (c.rest.take n ++ [mark]).length = c₃.offset + 1 := by
    have hall := congrArg List.length hsplit
    have hbehind := congrArg List.length hrest
    have hle := List.length_take_le n c.rest
    rw [hn, Cursor.advance, List.length_drop] at hbehind
    rw [hn, Cursor.advance]
    simp only [List.length_append, List.length_cons, List.length_nil] at hall hbehind ⊢
    omega
  refine ⟨c.rest.take n ++ [mark], mark, hmark, List.suffix_append _ _, hsplit, by rw [hlength],
    fun value' Y hvalue => ?_⟩
  -- up to the mark in front of the value the texts are the same
  have hbound : IsBound [mark] := by
    rcases hmark with rfl | rfl <;> exact .mark rfl
  have hagrees : c.Agrees [mark] (value.toList ++ mark :: c'.rest) (value'.toList ++ mark :: Y)
      ⟨c.offset, (c.rest.take n ++ [mark]) ++ (value'.toList ++ mark :: Y)⟩ :=
    ⟨_, hbound, List.suffix_append _ _, hsplit, rfl⟩
  have hlast : (value.toList ++ mark :: c'.rest).length + [mark].length ≤ c₃.rest.length := by
    rw [hrest, List.length_cons]
    exact Nat.le_refl _
  have hmiddle := Nat.le_trans hlast (length_rest_le equals_advances hequals)
  have hfirst := Nat.le_trans hmiddle (length_rest_le qualifiedName_advances hkey)
  obtain ⟨d₁, hspaces', hagrees₁⟩ := spaces_local.alike _ _ _ _ hagrees hspaces hfirst
  obtain ⟨d₂, hkey', hagrees₂⟩ := qualifiedName_local.alike _ _ _ _ hagrees₁ hkey hmiddle
  obtain ⟨d₃, hequals', u, -, -, hu, rfl⟩ := equals_local.alike _ _ _ _ hagrees₂ hequals hlast
  obtain rfl : u = [mark] := by
    rw [hrest, ← List.singleton_append] at hu
    exact (List.append_cancel_right hu).symm
  obtain ⟨y, r', r'', hy, hd⟩ := hagrees.exists_cons
  obtain rfl : y = x := by
    rw [hc] at hy
    exact (List.cons.inj hy).1.symm
  have hquote : (mark == '\'' || mark == '"') = true := by
    rcases hmark with rfl | rfl <;> rfl
  rw [tagPart_of_spaces hd hx hspaces' (hagrees₁.head?_eq ▸ hslash) (hagrees₁.head?_eq ▸ hclose),
    tagAttribute_of_equals hkey' hequals' hquote hvalue, hagrees₁.offset_eq, hagrees₂.offset_eq,
    String.ofList_toList, hlength]
  exact ⟨_, _, rfl⟩

end Scan

/-! ## Texts -/

namespace ScanState

variable {s s' : ScanState} {text : List Char} {key : QualifiedName} {value : String}
  {nameSpan valueSpan span : Span}

/-- The step through an attribute. -/
lemma tagPart_of_attribute (hs : s.Within text)
    (h : s.step = .ok (some (.attribute key value nameSpan valueSpan span), s')) :
    s.mode = .insideTag ∧
      Scan.tagPart s.cursor = .ok (some (.attribute key value nameSpan valueSpan span), s'.cursor) ∧
      s' = s.movedTo s'.cursor := by
  obtain ⟨-, -, ⟨-, hnext⟩, -⟩ := step_orderly hs _ _ h
  have hmode : s.mode = .insideTag := by
    cases hmode : s.mode <;> rw [hmode] at hnext <;> first | rfl | cases hnext
  have hinside := h
  rw [step, hmode] at hinside
  have hpart := tagPart_of_step hinside
  obtain ⟨s₂, hstep, hmoved⟩ := step_of_tagPart hmode hpart
  rw [h] at hstep
  cases hstep
  exact ⟨hmode, hpart, hmoved rfl⟩

end ScanState

/-- **The tokens of a text with another value**: those in front of the attribute, and the attribute
with that value.  What the attributes behind it say is not changed. -/
theorem exists_tokens_revalued {text : List Char} {before behind : List Token} {key : QualifiedName}
    {value : String} {nameSpan valueSpan span : Span}
    (h : (scanAll text).1 = before ++ .attribute key value nameSpan valueSpan span :: behind) :
    ∃ mark, text[valueSpan.stop]? = some mark ∧ ∀ value' : String,
      fitsBetween mark value'.toList = true →
      ∃ span' behind',
        (scanAll (text.take valueSpan.start ++ (value'.toList ++ text.drop valueSpan.stop))).1 =
          before ++ .attribute key value' nameSpan
            ⟨valueSpan.start, valueSpan.start + value'.toList.length⟩ span' :: behind' ∧
        saidFirst behind' = saidFirst behind := by
  obtain ⟨s₁, s₂, -, hruns, hrest, hstep, -⟩ := ScanState.exists_runsTo_of_scan (text.length + 3) h
  have hin := (hruns.within (ScanState.start_within text)).1
  obtain ⟨hmode, hpart, hmoved⟩ := ScanState.tagPart_of_attribute hin hstep
  obtain ⟨lead, mark, hmark, hlead, hread, rfl, hrevalued⟩ := Scan.exists_of_tagPart hpart
  have hdrop : text.drop s₁.cursor.offset = lead ++ (value.toList ++ mark :: s₂.cursor.rest) :=
    hin.1.symm.trans hread
  have hbehind : text.drop (s₁.cursor.offset + lead.length) = value.toList ++
      mark :: s₂.cursor.rest := by
    rw [← List.drop_drop, hdrop, List.drop_left]
  have hend : text.drop (s₁.cursor.offset + lead.length + value.toList.length) =
      mark :: s₂.cursor.rest := by
    rw [← List.drop_drop, hbehind, List.drop_left]
  have hfront : text.take (s₁.cursor.offset + lead.length) =
      text.take s₁.cursor.offset ++ lead := by
    rw [List.take_add, hdrop, List.take_left]
  refine ⟨mark, ?_, fun value' hvalue => ?_⟩
  · rw [← List.head?_drop, hend, List.head?_cons]
  show ∃ span' behind', (scanAll (text.take (s₁.cursor.offset + lead.length) ++ (value'.toList ++
    text.drop (s₁.cursor.offset + lead.length + value.toList.length)))).1 = _ ∧ _
  rw [hend]
  -- both texts are read alike up to the mark in front of the value
  have hbound : IsBound [mark] := by
    rcases hmark with rfl | rfl <;> exact .mark rfl
  have hsuffix : [mark] <:+ text.take (s₁.cursor.offset + lead.length) :=
    hfront ▸ hlead.trans (List.suffix_append _ _)
  have hagrees := ScanState.start_agrees hbound hsuffix (text.drop (s₁.cursor.offset + lead.length))
    (value'.toList ++ mark :: s₂.cursor.rest)
  rw [List.take_append_drop] at hagrees
  obtain ⟨d, hbegun, w, -, -, hw, rfl⟩ := hruns.alike (ScanState.start_within text) hagrees (by
    have hle := hlead.length_le
    simp only [hbehind, hread, List.length_append]
    omega)
  obtain rfl : w = lead := by
    rw [hread, hbehind] at hw
    exact (List.append_cancel_right hw).symm
  obtain ⟨span', o, hpart'⟩ := hrevalued value' s₂.cursor.rest hvalue
  obtain ⟨s₃, hstep', hmoved'⟩ := ScanState.step_of_tagPart
    (s := s₁.movedTo ⟨s₁.cursor.offset, w ++ (value'.toList ++ mark :: s₂.cursor.rest)⟩)
    hmode hpart'
  obtain rfl := hmoved' rfl
  -- what is behind the value is read as it was
  have hne : w ++ (value'.toList ++ mark :: s₂.cursor.rest) ≠ [] := by simp
  have hall := hruns.trans (.one hrest hstep (ScanState.stepsLeft_step_lt hrest hstep))
  have hall' := hbegun.trans (.one hne hstep' (ScanState.stepsLeft_step_lt hne hstep'))
  obtain ⟨steps, hsteps, hscan⟩ := ScanState.scan_of_runsTo hall (text.length + 3)
    (ScanState.stepsLeft_start_le text)
  obtain ⟨steps', hsteps', hscan'⟩ :=
    ScanState.scan_of_runsTo hall' _ (ScanState.stepsLeft_start_le _)
  have htokens : (scanAll text).1 = _ := congrArg Prod.fst hscan
  have htokens' : (scanAll (text.take (s₁.cursor.offset + w.length) ++
    (value'.toList ++ mark :: s₂.cursor.rest))).1 = _ := congrArg Prod.fst hscan'
  have hsame : behind = (s₂.scan steps).1 := by
    rw [h, List.append_cons] at htokens
    exact List.append_cancel_left htokens
  refine ⟨span', ((s₁.movedTo ⟨o, s₂.cursor.rest⟩).scan steps').1, ?_, ?_⟩
  · rw [htokens', List.append_assoc]
    rfl
  · rw [hsame, hmoved]
    exact ScanState.saidFirst_scan steps' steps hmode hmode rfl
      (Nat.le_trans (Nat.le_add_right _ _) hsteps') (Nat.le_trans (Nat.le_add_right _ _) hsteps)

end XmlAdvisor
