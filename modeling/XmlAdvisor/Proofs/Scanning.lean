import XmlAdvisor.Markup.Scanner
import Mathlib.Tactic.Lemma
import Mathlib.Tactic.SplitIfs

/-!
# Scanning stays inside the text

A scan can only move its cursor forward, so the cursor always stands in front of a rest of the text,
and what a token says about its place can be compared with the text.

* `Scan.Yields` — what a scan that does not stop does: it moves on by some number of characters and
  its result has a property.  It is put together step by step (`Yields.bind`, `andThen`).
* `Token.Inside` — the name that an opening tag reports fits between its start and the text's end.
* **`inside_of_mem_scanAll`** — all tokens of a text are inside it.
-/

namespace XmlAdvisor

/-- Whether the name of an opening tag fits into the text from where the tag starts. -/
def Token.Inside (text : List Char) : Token → Prop
  | .tagOpen name span => span.start + 1 + name.text.length ≤ text.length
  | _ => True

/-- Whether a token opens no tag. -/
def Token.OpensNothing : Token → Prop
  | .tagOpen _ _ => False
  | _ => True

lemma Token.OpensNothing.inside {t : Token} (h : t.OpensNothing) (text : List Char) :
    t.Inside text := by
  cases t with
  | tagOpen name span => exact h.elim
  | _ => trivial

/-! ## Cursors -/

namespace Cursor

/-- Whether a cursor stands in front of a rest of the text. -/
def ReadsFrom (c : Cursor) (text : List Char) : Prop :=
  c.rest = text.drop c.offset

lemma advance_zero (c : Cursor) : c.advance 0 = c := by
  simp [advance]

lemma advance_advance (c : Cursor) (m n : Nat) : (c.advance m).advance n = c.advance (m + n) := by
  simp [advance, Nat.add_assoc, List.drop_drop]

lemma ReadsFrom.advance {c : Cursor} {text : List Char} (h : c.ReadsFrom text) (n : Nat) :
    (c.advance n).ReadsFrom text := by
  rw [ReadsFrom] at h
  simp [ReadsFrom, Cursor.advance, h, List.drop_drop]

/-- A character that comes next, and what is behind it. -/
lemma rest_of_head? {c : Cursor} {x : Char} (h : c.rest.head? = some x) :
    c.rest = x :: (c.advance 1).rest := by
  obtain ⟨r, hr⟩ := List.head?_eq_some_iff.mp h
  rw [Cursor.advance, hr]
  rfl

end Cursor

namespace Scan

variable {α β : Type}

/-! ## Putting scans together -/

/-- A scan that does not stop moves on and gives a result with the property. -/
def Yields (P : α → Prop) (m : Scan α) : Prop :=
  ∀ c a c', m c = .ok (a, c') → (∃ n, c' = c.advance n) ∧ P a

/-- A scan that does not stop moves on. -/
abbrev Advances (m : Scan α) : Prop :=
  m.Yields fun _ => True

variable {P : α → Prop} {Q : β → Prop}

lemma bind_ok {m : Scan α} {f : α → Scan β} {c c'' : Cursor} {b : β}
    (h : (m >>= f) c = .ok (b, c'')) : ∃ a c', m c = .ok (a, c') ∧ f a c' = .ok (b, c'') := by
  simp only [Bind.bind, StateT.bind] at h
  cases hmc : m c with
  | error e =>
      rw [hmc] at h
      cases h
  | ok r =>
      rw [hmc] at h
      exact ⟨r.1, r.2, rfl, h⟩

lemma Yields.bind {m : Scan α} {f : α → Scan β} (hm : m.Yields P)
    (hf : ∀ a, P a → (f a).Yields Q) : (m >>= f).Yields Q := by
  intro c b c'' h
  obtain ⟨a, c', hmc, hfa⟩ := bind_ok h
  obtain ⟨⟨n, rfl⟩, ha⟩ := hm c a c' hmc
  obtain ⟨⟨k, rfl⟩, hb⟩ := hf a ha _ b c'' hfa
  exact ⟨⟨n + k, Cursor.advance_advance c n k⟩, hb⟩

lemma Yields.andThen {m : Scan α} {f : α → Scan β} (hm : m.Advances)
    (hf : ∀ a, (f a).Yields Q) : (m >>= f).Yields Q :=
  hm.bind fun a _ => hf a

lemma Yields.pure {a : α} (h : P a) : (Pure.pure a : Scan α).Yields P := by
  rintro c _ _ ⟨⟩
  exact ⟨⟨0, c.advance_zero.symm⟩, h⟩

lemma yields_stop {cause : Cause} : (stop cause : Scan α).Yields P := by
  rintro c _ _ ⟨⟩

lemma Yields.ite {p : Prop} [Decidable p] {m m' : Scan α} (h : m.Yields P) (h' : m'.Yields P) :
    (if p then m else m').Yields P := by
  split_ifs
  · exact h
  · exact h'

/-- A check that stops the scan or lets it go on. -/
lemma Yields.guarded {p : Prop} [Decidable p] {cause : Cause} {next : Unit → Scan β}
    (h : (next ()).Yields Q) : (if p then stop cause >>= next else next ()).Yields Q :=
  .ite (.bind yields_stop (P := fun _ => False) fun _ h => h.elim) h

/-! ## Reading steps -/

lemma offset_advances : offset.Advances := by
  rintro c _ _ ⟨⟩
  exact ⟨⟨0, c.advance_zero.symm⟩, trivial⟩

lemma peek_advances : peek.Advances := by
  rintro c _ _ ⟨⟩
  exact ⟨⟨0, c.advance_zero.symm⟩, trivial⟩

lemma comesNext_advances (s : String) : (comesNext s).Advances := by
  rintro c _ _ ⟨⟩
  exact ⟨⟨0, c.advance_zero.symm⟩, trivial⟩

lemma get_advances : (get : Scan Cursor).Advances := by
  rintro c _ _ ⟨⟩
  exact ⟨⟨0, c.advance_zero.symm⟩, trivial⟩

lemma skip_advances (n : Nat) : (skip n).Advances := by
  rintro c _ _ ⟨⟩
  exact ⟨⟨n, rfl⟩, trivial⟩

lemma run_advances (p : Char → Bool) : (run p).Advances :=
  .andThen get_advances fun _ => .andThen (skip_advances _) fun _ => .pure trivial

lemma spaces_advances : spaces.Advances :=
  .andThen (run_advances _) fun _ => .pure trivial

lemma literal_advances (s : String) : (literal s).Advances :=
  .andThen (comesNext_advances s) fun _ =>
    .ite (skip_advances _) (.andThen offset_advances fun _ => yields_stop)

lemma char_advances (c : Char) : (char c).Advances := by
  refine .andThen peek_advances fun d => ?_
  cases d with
  | none => exact yields_stop
  | some d => exact .ite (skip_advances 1) (.andThen offset_advances fun _ => yields_stop)

lemma someSpaces_advances : someSpaces.Advances := by
  refine .andThen peek_advances fun d => ?_
  cases d with
  | none => exact yields_stop
  | some d => exact .ite spaces_advances (.andThen offset_advances fun _ => yields_stop)

lemma quote_advances : quote.Advances := by
  refine .andThen peek_advances fun d => ?_
  cases d with
  | none => exact yields_stop
  | some d =>
      exact .ite (.andThen (skip_advances 1) fun _ => .pure trivial)
        (.andThen offset_advances fun _ => yields_stop)

lemma equals_advances : equals.Advances :=
  .andThen spaces_advances fun _ => .andThen (char_advances _) fun _ => spaces_advances

lemma quotedWith_advances (mark : Char) : (quotedWith mark).Advances :=
  .andThen (run_advances _) fun _ => .andThen (char_advances mark) fun _ => .pure trivial

lemma lift_advances (r : Except Cause α) : (liftM r : Scan α).Advances := by
  cases r with
  | error cause => rintro c _ _ ⟨⟩
  | ok a =>
      rintro c _ _ ⟨⟩
      exact ⟨⟨0, c.advance_zero.symm⟩, trivial⟩

lemma content_advances (last : List Char → Bool) : (content last).Advances :=
  .andThen get_advances fun _ => .andThen (lift_advances _) fun _ =>
    .andThen (skip_advances _) fun _ => .pure trivial

lemma nameOrEnd_advances : nameOrEnd.Advances := by
  refine .andThen peek_advances fun d => ?_
  cases d with
  | none => exact .pure trivial
  | some d => exact .ite (run_advances _) yields_stop

lemma name_advances : name.Advances := by
  refine .andThen nameOrEnd_advances fun cs => ?_
  cases cs with
  | nil => exact yields_stop
  | cons c cs => exact .pure trivial

lemma qualifiedName_advances : qualifiedName.Advances :=
  .andThen (run_advances _) fun _ => .ite yields_stop (.pure trivial)

lemma spanFrom_advances (start : Nat) : (spanFrom start).Advances :=
  .andThen offset_advances fun _ => .pure trivial

/-! ## Constructs that open no tag -/

/-- Whether a scan's token, if it has one, opens no tag. -/
abbrev Closed (t : Option Token) : Prop :=
  ∀ x ∈ t, x.OpensNothing

lemma closed_none : Closed none := by
  rintro x ⟨⟩

lemma closed_some {t : Token} (h : t.OpensNothing) : Closed (some t) := by
  rintro x ⟨⟩
  exact h

/-- A token that opens no tag, over the span that has been read. -/
lemma ends_closed (token : Span → Token) (h : ∀ span, (token span).OpensNothing) (start : Nat) :
    (do return some (token (← spanFrom start)) : Scan (Option Token)).Yields Closed :=
  .andThen (spanFrom_advances start) fun span => .pure (closed_some (h span))

lemma declarationGap_advances : declarationGap.Advances := by
  refine .andThen peek_advances fun d => ?_
  cases d with
  | none => exact .pure trivial
  | some c =>
      exact .ite spaces_advances (.andThen (comesNext_advances _) fun _ =>
        .ite (.pure trivial) (.andThen offset_advances fun _ => yields_stop))

lemma externalId_advances : externalId.Advances := by
  refine .andThen (comesNext_advances _) fun _ => .ite ?_ ?_
  · exact .andThen (skip_advances _) fun _ => .andThen someSpaces_advances fun _ =>
      .andThen quote_advances fun mark => .andThen (quotedWith_advances mark) fun _ =>
      .pure trivial
  · refine .andThen (comesNext_advances _) fun _ => .ite ?_ (.pure trivial)
    exact .andThen (skip_advances _) fun _ => .andThen someSpaces_advances fun _ =>
      .andThen quote_advances fun mark => .andThen (quotedWith_advances mark) fun _ =>
      .andThen someSpaces_advances fun _ =>
      .andThen quote_advances fun mark => .andThen (quotedWith_advances mark) fun _ =>
      .pure trivial

lemma declaration_closed : declaration.Yields Closed := by
  have ending : (do spaces; literal "?>"; return none : Scan (Option Token)).Yields Closed :=
    .andThen spaces_advances fun _ => .andThen (literal_advances _) fun _ => .pure closed_none
  have standalone : (do
      let found ← comesNext "standalone"
      if found then
        skip "standalone".length
        equals
        let mark ← quote
        let start ← offset
        let flag ← name
        if flag != "yes" && flag != "no" then stop (.expectedText ["yes", "no"] start)
        char mark
      spaces
      literal "?>"
      return none : Scan (Option Token)).Yields Closed := by
    refine .andThen (comesNext_advances _) fun _ => .ite ?_ ending
    exact .andThen (skip_advances _) fun _ => .andThen equals_advances fun _ =>
      .andThen quote_advances fun mark => .andThen offset_advances fun _ =>
      .andThen name_advances fun _ => .guarded (.andThen (char_advances mark) fun _ => ending)
  refine .andThen (skip_advances _) fun _ => .andThen spaces_advances fun _ =>
    .andThen (literal_advances _) fun _ => .andThen equals_advances fun _ =>
    .andThen quote_advances fun mark => .andThen (literal_advances _) fun _ =>
    .andThen (run_advances _) fun _ => .andThen (char_advances mark) fun _ =>
    .andThen declarationGap_advances fun _ => .andThen (comesNext_advances _) fun _ =>
    .ite ?_ standalone
  exact .andThen (skip_advances _) fun _ => .andThen equals_advances fun _ =>
    .andThen quote_advances fun mark => .andThen (run_advances _) fun _ =>
    .andThen (char_advances mark) fun _ => .andThen declarationGap_advances fun _ => standalone

lemma comment_closed : comment.Yields Closed :=
  .andThen offset_advances fun start => .andThen (skip_advances _) fun _ =>
    .andThen (content_advances _) fun _ => .andThen (literal_advances _) fun _ =>
    .guarded (.guarded (ends_closed (.comment _) (fun _ => trivial) start))

lemma instruction_closed : instruction.Yields Closed :=
  .andThen offset_advances fun start => .andThen (skip_advances _) fun _ =>
    .andThen name_advances fun target => .andThen spaces_advances fun _ =>
    .andThen (content_advances _) fun _ => .andThen (literal_advances _) fun _ =>
    ends_closed (.instruction target _) (fun _ => trivial) start

lemma doctype_closed : doctype.Yields Closed := by
  refine .andThen offset_advances fun start => .andThen (skip_advances _) fun _ =>
    .andThen someSpaces_advances fun _ => .andThen name_advances fun rootName =>
    .andThen spaces_advances fun _ => .andThen externalId_advances fun external =>
    .andThen spaces_advances fun _ => .andThen peek_advances fun d => ?_
  cases d with
  | none => exact yields_stop
  | some c =>
      refine .ite ?_ (.andThen offset_advances fun _ => yields_stop)
      exact .andThen (skip_advances 1) fun _ =>
        ends_closed (.doctype rootName external _) (fun _ => trivial) start

lemma entityValue_advances (isGeneral : Bool) : (entityValue isGeneral).Advances := by
  refine .andThen peek_advances fun d => ?_
  cases d with
  | none => exact yields_stop
  | some c =>
      refine .ite ?_ (.ite ?_ (.andThen offset_advances fun _ => yields_stop))
      · exact .andThen quote_advances fun mark => .andThen (quotedWith_advances mark) fun _ =>
          .pure trivial
      · refine .andThen externalId_advances fun external => ?_
        cases external with
        | none => exact yields_stop
        | some external =>
            refine .ite ?_ (.pure trivial)
            refine .andThen spaces_advances fun _ => .andThen (comesNext_advances _) fun _ =>
              .ite ?_ (.pure trivial)
            exact .andThen (skip_advances _) fun _ => .andThen someSpaces_advances fun _ =>
              .andThen nameOrEnd_advances fun _ => .pure trivial

lemma entity_closed : entity.Yields Closed := by
  have value (isGeneral : Bool) : (do
      let _ ← name
      someSpaces
      entityValue isGeneral
      spaces
      char '>'
      return none : Scan (Option Token)).Yields Closed :=
    .andThen name_advances fun _ => .andThen someSpaces_advances fun _ =>
      .andThen (entityValue_advances isGeneral) fun _ => .andThen spaces_advances fun _ =>
      .andThen (char_advances _) fun _ => .pure closed_none
  refine .andThen (skip_advances _) fun _ => .andThen someSpaces_advances fun _ =>
    .andThen peek_advances fun d => .ite ?_ (value _)
  exact .andThen (skip_advances _) fun _ => .andThen someSpaces_advances fun _ => value _

lemma subsetEnd_closed : subsetEnd.Yields Closed :=
  .andThen offset_advances fun start => .andThen (skip_advances _) fun _ =>
    .andThen spaces_advances fun _ => .andThen (char_advances _) fun _ =>
    ends_closed .subsetEnd (fun _ => trivial) start

lemma cdata_closed : cdata.Yields Closed :=
  .andThen offset_advances fun start => .andThen (skip_advances _) fun _ =>
    .andThen (content_advances _) fun _ => .andThen (literal_advances _) fun _ =>
    ends_closed (.cdata _) (fun _ => trivial) start

lemma endTag_closed : endTag.Yields Closed :=
  .andThen offset_advances fun start => .andThen (skip_advances _) fun _ =>
    .andThen qualifiedName_advances fun tag => .andThen spaces_advances fun _ =>
    .andThen (char_advances _) fun _ => ends_closed (.endTag tag) (fun _ => trivial) start

lemma text_closed : text.Yields Closed :=
  .andThen offset_advances fun start => .andThen (content_advances _) fun _ =>
    .guarded (ends_closed (.text _) (fun _ => trivial) start)

lemma tagAttribute_closed : tagAttribute.Yields Closed :=
  .andThen offset_advances fun start => .andThen qualifiedName_advances fun key =>
    .andThen (spanFrom_advances start) fun nameSpan => .andThen equals_advances fun _ =>
    .andThen quote_advances fun mark => .andThen offset_advances fun valueStart =>
    .andThen (content_advances _) fun _ =>
    .andThen (spanFrom_advances valueStart) fun valueSpan => .andThen (char_advances mark) fun _ =>
    ends_closed (.attribute key _ nameSpan valueSpan) (fun _ => trivial) start

lemma tagPart_closed : tagPart.Yields Closed := by
  refine .andThen get_advances fun before => .andThen spaces_advances fun _ =>
    .andThen offset_advances fun start => .andThen peek_advances fun d => ?_
  split
  · exact .andThen (skip_advances _) fun _ => .andThen (char_advances _) fun _ =>
      ends_closed .tagSelfClose (fun _ => trivial) start
  · exact .andThen (skip_advances _) fun _ =>
      ends_closed .tagClose (fun _ => trivial) start
  · split
    · exact yields_stop
    · exact .ite tagAttribute_closed yields_stop

/-! ## Parts of start tags -/

/-- A character that is read stands at the cursor. -/
lemma char_ok {c c' : Cursor} {d : Char} {u : Unit} (h : char d c = .ok (u, c')) :
    c.rest.head? = some d ∧ c' = c.advance 1 := by
  obtain ⟨found, _, hpeek, h⟩ := bind_ok h
  cases hpeek
  cases hrest : c.rest.head? with
  | none =>
      rw [hrest] at h
      cases h
  | some e =>
      rw [hrest] at h
      dsimp only at h
      split_ifs at h with heq
      · cases h
        exact ⟨by rw [heq], rfl⟩
      · obtain ⟨_, _, ⟨⟩, h⟩ := bind_ok h
        cases h

/-- What is read of an attribute: its name, an equals sign, and its value between two marks. -/
lemma tagAttribute_ok {c c' : Cursor} {t : Option Token} (h : tagAttribute c = .ok (t, c')) :
    ∃ key c₁ c₂ mark c₃ cs c₄, qualifiedName c = .ok (key, c₁) ∧ equals c₁ = .ok ((), c₂) ∧
      quote c₂ = .ok (mark, c₃) ∧
      content (fun cs => cs.head? == some mark || cs.head? == some '<') c₃ = .ok (cs, c₄) ∧
      char mark c₄ = .ok ((), c') ∧
        t = some (.attribute key (String.ofList cs) ⟨c.offset, c₁.offset⟩
        ⟨c₃.offset, c₄.offset⟩ ⟨c.offset, c'.offset⟩) := by
  obtain ⟨start, _, ⟨⟩, h⟩ := bind_ok h
  obtain ⟨key, c₁, hkey, h⟩ := bind_ok h
  obtain ⟨nameSpan, _, ⟨⟩, h⟩ := bind_ok h
  obtain ⟨_, c₂, hequals, h⟩ := bind_ok h
  obtain ⟨mark, c₃, hquote, h⟩ := bind_ok h
  obtain ⟨valueStart, _, ⟨⟩, h⟩ := bind_ok h
  obtain ⟨cs, c₄, hvalue, h⟩ := bind_ok h
  obtain ⟨valueSpan, _, ⟨⟩, h⟩ := bind_ok h
  obtain ⟨_, c₅, hend, h⟩ := bind_ok h
  obtain ⟨_, _, ⟨⟩, h⟩ := bind_ok h
  cases h
  exact ⟨key, c₁, c₂, mark, c₃, cs, c₄, hkey, hequals, hquote, hvalue, hend, rfl⟩

/-- What is read inside a start tag between two cursors, where `c₁` stands behind the blanks: an end
of the tag, or an attribute with a blank before it. -/
inductive ReadPart (c c₁ : Cursor) (t : Option Token) (c' : Cursor) : Prop
  | selfClose (mark : c₁.rest.head? = some '/') (ends : char '>' (c₁.advance 1) = .ok ((), c'))
      (token : t = some (.tagSelfClose ⟨c₁.offset, c'.offset⟩))
  | close (mark : c₁.rest.head? = some '>') (ends : c' = c₁.advance 1)
      (token : t = some (.tagClose ⟨c₁.offset, c'.offset⟩))
  | attribute (noSlash : c₁.rest.head? ≠ some '/') (noClose : c₁.rest.head? ≠ some '>')
      (blank : c.rest.head?.any isXmlSpace = true) (read : tagAttribute c₁ = .ok (t, c'))

/-- What is read inside a start tag is one of its parts. -/
lemma tagPart_ok {c c' : Cursor} {t : Option Token} (h : tagPart c = .ok (t, c')) :
    ReadPart c (c.advance (c.rest.takeWhile isXmlSpace).length) t c' := by
  obtain ⟨before, _, ⟨⟩, h⟩ := bind_ok h
  obtain ⟨_, c₁, hspaces, h⟩ := bind_ok h
  obtain ⟨start, _, ⟨⟩, h⟩ := bind_ok h
  obtain ⟨found, _, hpeek, h⟩ := bind_ok h
  cases hpeek
  have hc₁ : c₁ = c.advance (c.rest.takeWhile isXmlSpace).length := by
    cases hspaces
    rfl
  rw [← hc₁]
  generalize hfound : c₁.rest.head? = found at h
  split at h
  · obtain ⟨_, _, ⟨⟩, h⟩ := bind_ok h
    obtain ⟨_, _, hends, h⟩ := bind_ok h
    obtain ⟨_, _, ⟨⟩, h⟩ := bind_ok h
    cases h
    exact .selfClose hfound hends rfl
  · obtain ⟨_, _, ⟨⟩, h⟩ := bind_ok h
    obtain ⟨_, _, ⟨⟩, h⟩ := bind_ok h
    cases h
    exact .close hfound rfl rfl
  · rename_i hslash hclose
    cases hrest : c.rest with
    | nil =>
        rw [hrest] at h
        cases h
    | cons x r =>
        rw [hrest] at h
        dsimp only at h
        split_ifs at h with hx
        · refine .attribute ?_ ?_ ?_ h
          · rwa [hfound]
          · rwa [hfound]
          · rwa [hrest, List.head?_cons, Option.any_some]
        · cases h

/-! ## The opening of a start tag -/

/-- Around the first colon of a text lies all of it. -/
lemma append_of_splitAtColon {cs q l : List Char} (h : splitAtColon cs = some (q, l)) :
    q ++ ':' :: l = cs := by
  have split := List.takeWhile_append_dropWhile (p := fun c : Char => c != ':') (l := cs)
  rw [splitAtColon] at h
  cases hd : cs.dropWhile (fun c : Char => c != ':') with
  | nil => simp [hd] at h
  | cons d after =>
      have hne : cs.dropWhile (fun c : Char => c != ':') ≠ [] := by simp [hd]
      have hcolon := List.head_dropWhile_not (fun c : Char => c != ':') hne
      simp only [hd, List.head_cons, bne_eq_false_iff_eq] at hcolon
      simp only [hd, Option.some.injEq, Prod.mk.injEq] at h
      obtain ⟨rfl, rfl⟩ := h
      rwa [hd, hcolon] at split

lemma text_length_le (q l : List Char) :
    (QualifiedName.mk (qualifierOf (String.ofList q)) (String.ofList l)).text.length ≤
      (q ++ ':' :: l).length := by
  rw [QualifiedName.text, qualifierOf]
  split_ifs
  · simp
    omega
  · simp only [String.length_append, String.length_ofList, List.length_append, List.length_cons]
    change q.length + 1 + l.length ≤ q.length + (l.length + 1)
    omega

lemma localName_length_le (n : QualifiedName) : n.localName.length ≤ n.text.length := by
  rw [QualifiedName.text]
  split <;> simp

/-- A name that is read is not empty and was there to be read. -/
lemma qualifiedName_fits {c c' : Cursor} {n : QualifiedName}
    (h : qualifiedName c = .ok (n, c')) : 0 < n.text.length ∧ n.text.length ≤ c.rest.length := by
  have written := (List.takeWhile_prefix isNameChar (l := c.rest)).length_le
  obtain ⟨cs, c₁, hrun, h⟩ := bind_ok h
  cases hrun
  generalize c.rest.takeWhile isNameChar = cs at h written
  obtain ⟨q, l, hl, rfl, hle⟩ : ∃ q l, l ≠ [] ∧
      n = ⟨qualifierOf (String.ofList q), String.ofList l⟩ ∧ n.text.length ≤ cs.length := by
    cases hsplit : splitAtColon cs with
    | none =>
        rw [hsplit] at h
        dsimp only at h
        split_ifs at h with hbad
        · cases h
        · cases h
          refine ⟨[], cs, ?_, rfl, by simp [QualifiedName.text, qualifierOf]⟩
          rintro rfl
          exact hbad rfl
    | some ql =>
        obtain ⟨q, l⟩ := ql
        rw [hsplit] at h
        dsimp only at h
        split_ifs at h with hbad
        · cases h
        · cases h
          refine ⟨q, l, ?_, rfl, ?_⟩
          · rintro rfl
            exact hbad (by simp)
          · rw [← append_of_splitAtColon hsplit]
            exact text_length_le q l
  have pos : 0 < (String.ofList l).length := by
    simpa [List.length_pos_iff] using hl
  exact ⟨Nat.lt_of_lt_of_le pos (localName_length_le ⟨_, _⟩), Nat.le_trans hle written⟩

lemma tagOpen_advances : tagOpen.Advances :=
  .andThen offset_advances fun start => .andThen (skip_advances _) fun _ =>
    .andThen qualifiedName_advances fun _ => .andThen (spanFrom_advances start) fun _ =>
    .pure trivial

/-- The name of a start tag is what was read after its first character. -/
lemma tagOpen_inside {text : List Char} {c c' : Cursor} {t : Option Token}
    (hc : c.ReadsFrom text) (h : tagOpen c = .ok (t, c')) : ∀ x ∈ t, x.Inside text := by
  obtain ⟨start, _, ⟨⟩, h⟩ := bind_ok h
  obtain ⟨_, _, ⟨⟩, h⟩ := bind_ok h
  obtain ⟨name, _, hname, h⟩ := bind_ok h
  obtain ⟨_, _, ⟨⟩, h⟩ := bind_ok h
  cases h
  rintro _ ⟨⟩
  obtain ⟨pos, fits⟩ := qualifiedName_fits hname
  have rest : (c.advance 1).rest.length = text.length - (c.offset + 1) := by
    rw [hc.advance 1, List.length_drop]
    rfl
  change _ ≤ (c.advance 1).rest.length at fits
  simp only [Token.Inside]
  omega

end Scan

/-! ## Steps -/

namespace ScanState

/-- A step that does not fail leaves a cursor in the text and gives a token inside it. -/
def Sound (text : List Char) (r : StepResult) : Prop :=
  ∀ t s', r = .ok (t, s') → s'.cursor.ReadsFrom text ∧ ∀ x ∈ t, x.Inside text

variable {text : List Char} {s : ScanState}

lemma sound_error (fault : Fault) : Sound text (.error fault) := by
  rintro _ _ ⟨⟩

lemma sound_none (h : s.cursor.ReadsFrom text) : Sound text (.ok (none, s)) := by
  rintro _ _ ⟨⟩
  exact ⟨h, by rintro x ⟨⟩⟩

lemma Sound.of_cursor_eq {r : StepResult} {t : Option Token} {s' s'' : ScanState}
    (h : Sound text r) (hr : r = .ok (t, s')) (hc : s''.cursor = s'.cursor) :
    Sound text (.ok (t, s'')) := by
  rintro _ _ ⟨⟩
  rw [hc]
  exact h t s' hr

lemma read_sound {scan : Scan (Option Token)} (what : Construct) (h : s.cursor.ReadsFrom text)
    (hscan : scan.Advances)
    (htoken : ∀ t c, scan s.cursor = .ok (t, c) → ∀ x ∈ t, x.Inside text) :
    Sound text (s.read what scan) := by
  rw [read]
  cases hr : scan s.cursor with
  | error cause => exact sound_error _
  | ok r =>
      obtain ⟨t, c⟩ := r
      obtain ⟨⟨n, rfl⟩, -⟩ := hscan _ _ _ hr
      rintro _ _ ⟨⟩
      exact ⟨h.advance n, htoken t _ hr⟩

lemma readClosed_sound {scan : Scan (Option Token)} (what : Construct)
    (h : s.cursor.ReadsFrom text) (hscan : scan.Yields Scan.Closed) :
    Sound text (s.read what scan) :=
  read_sound what h (fun c t c' hr => ⟨(hscan c t c' hr).1, trivial⟩)
    fun t c hr x hx => ((hscan _ t c hr).2 x hx).inside text

lemma readTag_sound (h : s.cursor.ReadsFrom text) :
    Sound text (s.read .element Scan.tagOpen) :=
  read_sound .element h Scan.tagOpen_advances fun _ _ hr => Scan.tagOpen_inside h hr

lemma misc_sound {other : StepResult} (h : s.cursor.ReadsFrom text) (ho : Sound text other) :
    Sound text (s.misc other) := by
  rw [misc]
  split_ifs
  · exact readClosed_sound _ h Scan.comment_closed
  · exact sound_error _
  · exact readClosed_sound _ h Scan.instruction_closed
  · exact sound_none (h.advance _)
  · exact ho

lemma stepProlog_sound (h : s.cursor.ReadsFrom text) : Sound text s.stepProlog := by
  rw [stepProlog]
  split_ifs
  · have hread : Sound text (s.read .doctype Scan.doctype) :=
      readClosed_sound _ h Scan.doctype_closed
    split
    · rename_i heq
      exact hread.of_cursor_eq heq rfl
    · exact hread
  · exact misc_sound h (sound_none h)

lemma stepSubset_sound (h : s.cursor.ReadsFrom text) : Sound text s.stepSubset := by
  rw [stepSubset, skipDeclaration]
  split_ifs
  · exact readClosed_sound _ h Scan.entity_closed
  · exact readClosed_sound _ h Scan.subsetEnd_closed
  · exact sound_none (h.advance _)
  · exact sound_error _
  · exact misc_sound h (sound_error _)

lemma stepBeforeRoot_sound (h : s.cursor.ReadsFrom text) : Sound text s.stepBeforeRoot := by
  rw [stepBeforeRoot]
  refine misc_sound h ?_
  split_ifs
  · exact sound_error _
  · exact readTag_sound h
  · exact sound_error _

lemma stepContent_sound (h : s.cursor.ReadsFrom text) : Sound text s.stepContent := by
  rw [stepContent]
  dsimp only
  split_ifs
  · exact readClosed_sound _ h Scan.comment_closed
  · exact readClosed_sound _ h Scan.cdata_closed
  · exact sound_error _
  · exact readClosed_sound _ h Scan.instruction_closed
  · exact readClosed_sound _ h Scan.endTag_closed
  · exact sound_error _
  · exact readTag_sound h
  · exact readClosed_sound _ h Scan.text_closed

lemma stepInsideTag_sound (h : s.cursor.ReadsFrom text) : Sound text s.stepInsideTag := by
  have hread : Sound text (s.read .attribute Scan.tagPart) :=
    readClosed_sound _ h Scan.tagPart_closed
  rw [stepInsideTag]
  split
  · rename_i heq
    exact hread.of_cursor_eq heq rfl
  · rename_i heq
    exact hread.of_cursor_eq heq rfl
  · exact hread

/-- One step of the scanner stays inside the text, in every mode. -/
lemma step_sound (h : s.cursor.ReadsFrom text) : Sound text s.step := by
  rw [step]
  split
  · split_ifs
    · exact readClosed_sound _ h Scan.declaration_closed
    · exact sound_none h
  · exact stepProlog_sound h
  · exact stepSubset_sound h
  · exact stepBeforeRoot_sound h
  · exact stepContent_sound h
  · exact stepInsideTag_sound h
  · exact misc_sound h (sound_error _)

lemma inside_of_mem_scan (steps : Nat) {s : ScanState} (h : s.cursor.ReadsFrom text) :
    ∀ t ∈ (s.scan steps).1, t.Inside text := by
  induction steps generalizing s with
  | zero =>
      intro t ht
      cases ht
  | succ steps ih =>
      rw [scan]
      split_ifs
      · intro t ht
        cases ht
      · cases hstep : s.step with
        | error fault =>
            intro t ht
            cases ht
        | ok r =>
            obtain ⟨token, s'⟩ := r
            obtain ⟨hs', htoken⟩ := step_sound h token s' hstep
            intro t ht
            rcases List.mem_append.mp ht with ht | ht
            · exact htoken t (Option.mem_toList.mp ht)
            · exact ih hs' t ht

end ScanState

lemma startCursor_readsFrom (text : List Char) : (startCursor text).ReadsFrom text := by
  unfold startCursor
  split <;> rfl

/-- Whatever is scanned lies inside the text: no opening tag reports a name that goes past its
end. -/
theorem inside_of_mem_scanAll (text : List Char) : ∀ t ∈ (scanAll text).1, t.Inside text :=
  ScanState.inside_of_mem_scan _ (startCursor_readsFrom text)

end XmlAdvisor
