import XmlAdvisor.Proofs.TokenOrder
import XmlAdvisor.Proofs.WrittenTokens

/-!
# What is read in front of a bound

Two texts that begin alike up to the `>` of a tag are read alike up to there.  A scan may look
ahead, but none looks for anything that goes on behind a `>`, so a scan that stays in front of the
`>` has not seen what comes behind it.  Nor does any look for something that goes on behind a
quotation mark, or behind a `<` with the first character of a name, so quotation marks and the
beginnings of tags bound what is seen in the same way.

* `IsBound` — the kinds of bound: the end of a tag, a quotation mark, and the beginning of a tag.
* `Cursor.Agrees` — two cursors in front of the same text up to and with a bound.
* `Scan.Local` — a scan that reads alike at cursors that agree, as long as it ends in front of the
  bound. It is put together step by step (`Local.andThen`, `Local.ite`).
* **`ScanState.step_alike`** — so does every step of the scanner.
-/

namespace XmlAdvisor

/-! ## Bounds -/

/-- Whether a character is a bound by itself: the end of a tag, or a quotation mark. -/
def endsSight (c : Char) : Bool :=
  c == '>' || c == '"' || c == '\''

/-- What no look ahead goes on behind: the end of a tag, a quotation mark, or the beginning of a
tag. -/
inductive IsBound : List Char → Prop
  | mark {c : Char} (h : endsSight c = true) : IsBound [c]
  | opening {x : Char} (h : isNameStart x = true) : IsBound ['<', x]

/-- The end of a tag is a bound. -/
lemma IsBound.close : IsBound ['>'] :=
  .mark rfl

/-- Whether a text goes on behind a bound. -/
def crossesBound : List Char → Bool
  | a :: b :: more =>
    endsSight a || a == '<' && isNameStart b && !more.isEmpty || crossesBound (b :: more)
  | _ => false

variable {bound X Y : List Char}

lemma IsBound.length_pos (h : IsBound bound) : 0 < bound.length := by
  cases h <;> exact Nat.succ_pos _

lemma crossesBound_of_cons {a : Char} {s : List Char} (h : crossesBound (a :: s) = false) :
    crossesBound s = false := by
  cases s with
  | nil => rfl
  | cons b s =>
      rw [crossesBound, Bool.or_eq_false_iff] at h
      exact h.2

/-- A text that goes on behind no bound comes next in both or in neither of two texts that are the
same up to one. -/
lemma IsBound.isPrefixOf_append (hbound : IsBound bound) {s u : List Char}
    (hs : crossesBound s = false)
    (hu : bound <:+ u) : s.isPrefixOf (u ++ Y) = s.isPrefixOf (u ++ X) := by
  induction s generalizing u with
  | nil => rfl
  | cons a s ih =>
      cases u with
      | nil =>
          rw [List.suffix_nil] at hu
          have hpos := hbound.length_pos
          rw [hu] at hpos
          cases hpos
      | cons b u =>
          rw [List.cons_append, List.cons_append, List.isPrefixOf, List.isPrefixOf]
          rcases List.suffix_cons_iff.mp hu with heq | hu
          · -- only the bound is left
            by_cases hab : a = b
            · subst hab
              cases hbound with
              | mark hmark =>
                  cases heq
                  cases s with
                  | nil => rfl
                  | cons b s =>
                      rw [crossesBound, hmark] at hs
                      cases hs
              | @opening x hx =>
                  cases heq
                  cases s with
                  | nil => rfl
                  | cons b s =>
                      by_cases hb : b = x
                      · subst hb
                        cases s with
                        | nil => rfl
                        | cons b' s =>
                            rw [crossesBound, hx] at hs
                            cases hs
                      · have hne : (b == x) = false := beq_eq_false_iff_ne.mpr hb
                        simp only [List.cons_append, List.isPrefixOf, hne, Bool.false_and]
            · have hne : (a == b) = false := beq_eq_false_iff_ne.mpr hab
              rw [hne, Bool.false_and, Bool.false_and]
          · rw [ih (crossesBound_of_cons hs) hu]

/-! ## Texts that begin alike -/

namespace Cursor

/-- Whether two cursors stand at one offset, in front of the same text up to and with a bound; what
comes behind that is given for each. -/
def Agrees (bound X Y : List Char) (c d : Cursor) : Prop :=
  ∃ u, IsBound bound ∧ bound <:+ u ∧ c.rest = u ++ X ∧ d = ⟨c.offset, u ++ Y⟩

variable {c d : Cursor}

/-- Moving on in front of the bound. -/
lemma Agrees.advance (h : c.Agrees bound X Y d) {n : Nat}
    (hn : X.length + bound.length ≤ (c.advance n).rest.length) :
    (c.advance n).Agrees bound X Y (d.advance n) := by
  obtain ⟨u, hbound, hu, hc, rfl⟩ := h
  have hpos := hbound.length_pos
  rw [Cursor.advance, hc, List.length_drop, List.length_append] at hn
  have hle : n ≤ u.length := by omega
  refine ⟨u.drop n, hbound, ?_, ?_, ?_⟩
  · refine List.suffix_of_suffix_length_le hu (List.drop_suffix n u) ?_
    rw [List.length_drop]
    omega
  · rw [Cursor.advance, hc, List.drop_append_of_le_length hle]
  · simp only [Cursor.advance, List.drop_append_of_le_length hle]

lemma Agrees.offset_eq (h : c.Agrees bound X Y d) : d.offset = c.offset := by
  obtain ⟨u, -, -, -, rfl⟩ := h
  rfl

/-- What comes next is there to be seen. -/
lemma Agrees.exists_cons (h : c.Agrees bound X Y d) :
    ∃ x r r', c.rest = x :: r ∧ d.rest = x :: r' := by
  obtain ⟨u, hbound, hu, hc, rfl⟩ := h
  cases u with
  | nil =>
      have hpos := hbound.length_pos
      rw [List.suffix_nil.mp hu] at hpos
      cases hpos
  | cons x u => exact ⟨x, u ++ X, u ++ Y, hc, rfl⟩

lemma Agrees.head?_eq (h : c.Agrees bound X Y d) : d.rest.head? = c.rest.head? := by
  obtain ⟨x, r, r', hc, hd⟩ := h.exists_cons
  rw [hc, hd, List.head?_cons, List.head?_cons]

lemma Agrees.startsWith_eq (h : c.Agrees bound X Y d) {s : String}
    (hs : crossesBound s.toList = false) : d.startsWith s = c.startsWith s := by
  obtain ⟨u, hbound, hu, hc, rfl⟩ := h
  rw [startsWith, startsWith, hc]
  exact hbound.isPrefixOf_append hs hu

/-- Characters are read alike if they end before the text that is the same does. -/
lemma takeWhile_append {p : Char → Bool} {u : List Char}
    (h : ((u ++ X).takeWhile p).length < u.length) :
    (u ++ Y).takeWhile p = (u ++ X).takeWhile p := by
  induction u with
  | nil => cases h
  | cons x u ih =>
      rw [List.cons_append, List.takeWhile_cons] at h
      rw [List.cons_append, List.cons_append, List.takeWhile_cons, List.takeWhile_cons]
      split_ifs at h ⊢
      · rw [ih (by simpa using h)]
      · rfl

end Cursor

namespace Scan

variable {α β : Type}

/-! ## Putting scans together -/

/-- A scan moves on, and reads alike at cursors that agree if it ends in front of the bound. -/
structure Local (bound X Y : List Char) (m : Scan α) : Prop where
  advances : m.Advances
  alike : ∀ c d a c', c.Agrees bound X Y d → m c = .ok (a, c') →
    X.length + bound.length ≤ c'.rest.length →
    ∃ d', m d = .ok (a, d') ∧ c'.Agrees bound X Y d'

lemma Yields.advances {P : α → Prop} {m : Scan α} (h : m.Yields P) : m.Advances :=
  fun c a c' hmc => ⟨(h c a c' hmc).1, trivial⟩

lemma length_rest_le {m : Scan α} (hm : m.Advances) {c c' : Cursor} {a : α}
    (h : m c = .ok (a, c')) :
    c'.rest.length ≤ c.rest.length := by
  obtain ⟨⟨n, rfl⟩, -⟩ := hm c a c' h
  rw [Cursor.advance, List.length_drop]
  exact Nat.sub_le _ _

lemma Local.andThen {m : Scan α} {f : α → Scan β} (hm : m.Local bound X Y)
    (hf : ∀ a, (f a).Local bound X Y) :
    (m >>= f).Local bound X Y := by
  refine ⟨.andThen hm.advances fun a => (hf a).advances, fun c d b c'' hcd h hrest => ?_⟩
  obtain ⟨a, c', hmc, hfa⟩ := bind_ok h
  have hle := length_rest_le (hf a).advances hfa
  obtain ⟨d', hmd, hagrees⟩ := hm.alike c d a c' hcd hmc (Nat.le_trans hrest hle)
  obtain ⟨d'', hfd, hagrees⟩ := (hf a).alike c' d' b c'' hagrees hfa hrest
  exact ⟨d'', (bind_of_ok hmd).trans hfd, hagrees⟩

lemma Local.pure {a : α} : (Pure.pure a : Scan α).Local bound X Y := by
  refine ⟨.pure trivial, ?_⟩
  rintro c d _ _ hcd ⟨⟩ -
  exact ⟨d, rfl, hcd⟩

lemma local_stop {cause : Cause} : (stop cause : Scan α).Local bound X Y := by
  refine ⟨yields_stop, ?_⟩
  rintro c d _ _ - ⟨⟩

lemma Local.ite {p : Prop} [Decidable p] {m m' : Scan α} (h : m.Local bound X Y)
    (h' : m'.Local bound X Y) :
    (if p then m else m').Local bound X Y := by
  split_ifs
  · exact h
  · exact h'

/-- A check that stops the scan or lets it go on. -/
lemma Local.guarded {p : Prop} [Decidable p] {cause : Cause} {next : Unit → Scan β}
    (h : (next ()).Local bound X Y) :
    (if p then stop cause >>= next else next ()).Local bound X Y := by
  refine .ite ⟨.bind yields_stop (P := fun _ => False) fun _ h => h.elim, ?_⟩ h
  intro c d b c' _ hstop
  obtain ⟨_, _, ⟨⟩, _⟩ := bind_ok hstop

/-! ## Reading steps -/

lemma offset_local : offset.Local bound X Y := by
  refine ⟨offset_advances, ?_⟩
  rintro c d _ _ hcd ⟨⟩ -
  exact ⟨d, by rw [← hcd.offset_eq]; rfl, hcd⟩

lemma peek_local : peek.Local bound X Y := by
  refine ⟨peek_advances, ?_⟩
  rintro c d _ _ hcd ⟨⟩ -
  exact ⟨d, by rw [← hcd.head?_eq]; rfl, hcd⟩

lemma comesNext_local {s : String} (hs : crossesBound s.toList = false) :
    (comesNext s).Local bound X Y := by
  refine ⟨comesNext_advances s, ?_⟩
  rintro c d _ _ hcd ⟨⟩ -
  exact ⟨d, by rw [← hcd.startsWith_eq hs]; rfl, hcd⟩

lemma skip_local (n : Nat) : (skip n).Local bound X Y := by
  refine ⟨skip_advances n, ?_⟩
  rintro c d _ _ hcd ⟨⟩ hrest
  exact ⟨d.advance n, rfl, hcd.advance hrest⟩

lemma run_local (p : Char → Bool) : (run p).Local bound X Y := by
  refine ⟨run_advances p, ?_⟩
  intro c d cs c' hcd h hrest
  obtain ⟨_, _, ⟨⟩, h⟩ := bind_ok h
  cases h
  have hrest : X.length + bound.length ≤
    (c.advance (c.rest.takeWhile p).length).rest.length := hrest
  have hagrees := hcd.advance hrest
  obtain ⟨u, hbound, -, hc, rfl⟩ := hcd
  have hpos := hbound.length_pos
  have hsame : (u ++ Y).takeWhile p = c.rest.takeWhile p := by
    rw [hc]
    refine Cursor.takeWhile_append ?_
    rw [Cursor.advance, List.length_drop, hc, List.length_append] at hrest
    omega
  refine ⟨_, ?_, hagrees⟩
  rw [← hsame]
  rfl

lemma spaces_local : spaces.Local bound X Y :=
  .andThen (run_local _) fun _ => .pure

lemma literal_local {s : String} (hs : crossesBound s.toList = false) :
    (literal s).Local bound X Y :=
  .andThen (comesNext_local hs) fun _ =>
    .ite (skip_local _) (.andThen offset_local fun _ => local_stop)

lemma char_local (c : Char) : (char c).Local bound X Y := by
  refine .andThen peek_local fun d => ?_
  cases d with
  | none => exact local_stop
  | some d => exact .ite (skip_local 1) (.andThen offset_local fun _ => local_stop)

lemma someSpaces_local : someSpaces.Local bound X Y := by
  refine .andThen peek_local fun d => ?_
  cases d with
  | none => exact local_stop
  | some d => exact .ite spaces_local (.andThen offset_local fun _ => local_stop)

lemma quote_local : quote.Local bound X Y := by
  refine .andThen peek_local fun d => ?_
  cases d with
  | none => exact local_stop
  | some d =>
      exact .ite (.andThen (skip_local 1) fun _ => .pure)
        (.andThen offset_local fun _ => local_stop)

lemma equals_local : equals.Local bound X Y :=
  .andThen spaces_local fun _ => .andThen (char_local _) fun _ => spaces_local

lemma quotedWith_local (mark : Char) : (quotedWith mark).Local bound X Y :=
  .andThen (run_local _) fun _ => .andThen (char_local mark) fun _ => .pure

/-- Contents are read alike if they end in front of the bound, and are not looked for behind it. -/
lemma contentUntil_local {last : List Char → Bool} (hbound : IsBound bound)
    (hlast : ∀ u : List Char, bound <:+ u → last (u ++ Y) = last (u ++ X)) (o : Nat)
    {u cs : List Char} (hu : bound <:+ u) (h : contentUntil last o (u ++ X) = .ok cs)
    (hcs : cs.length + bound.length ≤ u.length) : contentUntil last o (u ++ Y) = .ok cs := by
  induction u generalizing o cs with
  | nil =>
      have hpos := hbound.length_pos
      rw [List.suffix_nil.mp hu] at hpos
      cases hpos
  | cons x u ih =>
      have hsame := hlast (x :: u) hu
      rw [List.cons_append] at h hsame ⊢
      rw [contentUntil] at h ⊢
      rw [List.cons_append] at hsame
      rw [hsame]
      split_ifs at h ⊢ with hchar hstop
      · exact h
      · cases hmore : contentUntil last (o + 1) (u ++ X) with
        | error cause =>
            rw [hmore] at h
            cases h
        | ok more =>
            rw [hmore] at h
            cases h
            have hshort : more.length + bound.length ≤ u.length := by
              simp only [List.length_cons] at hcs
              omega
            have hu : bound <:+ u := by
              refine List.suffix_of_suffix_length_le hu (List.suffix_cons x u) ?_
              omega
            rw [ih (o + 1) hu hmore hshort]
            rfl

lemma content_local {last : List Char → Bool}
    (hlast : IsBound bound → ∀ u : List Char, bound <:+ u → last (u ++ Y) = last (u ++ X)) :
    (content last).Local bound X Y := by
  refine ⟨content_advances last, ?_⟩
  intro c d cs c' hcd h hrest
  obtain ⟨_, _, ⟨⟩, h⟩ := bind_ok h
  obtain ⟨read, _, hread, h⟩ := bind_ok h
  cases hcontent : contentUntil last c.offset c.rest with
  | error cause =>
      rw [hcontent] at hread
      cases hread
  | ok read =>
      rw [hcontent] at hread
      cases hread
      cases h
      have hrest : X.length + bound.length ≤ (c.advance cs.length).rest.length := hrest
      have hagrees := hcd.advance hrest
      obtain ⟨u, hbound, hu, hc, rfl⟩ := hcd
      have hpos := hbound.length_pos
      rw [hc] at hcontent
      have hsame : contentUntil last c.offset (u ++ Y) = .ok cs := by
        refine contentUntil_local hbound (hlast hbound) c.offset hu hcontent ?_
        rw [Cursor.advance, List.length_drop, hc, List.length_append] at hrest
        omega
      refine ⟨_, ?_, hagrees⟩
      rw [content, bind_of_ok (a := (⟨c.offset, u ++ Y⟩ : Cursor)) rfl]
      dsimp only
      rw [hsame]
      rfl

/-- Contents that end with a text. -/
lemma contentBefore_local {s : List Char} (hs : crossesBound s = false) :
    (content (s.isPrefixOf ·)).Local bound X Y :=
  content_local fun hbound _ hu => hbound.isPrefixOf_append hs hu

lemma nameOrEnd_local : nameOrEnd.Local bound X Y := by
  refine .andThen peek_local fun d => ?_
  cases d with
  | none => exact .pure
  | some d => exact .ite (run_local _) local_stop

lemma name_local : name.Local bound X Y := by
  refine .andThen nameOrEnd_local fun cs => ?_
  cases cs with
  | nil => exact local_stop
  | cons c cs => exact .pure

lemma qualifiedName_local : qualifiedName.Local bound X Y :=
  .andThen (run_local _) fun _ => .ite local_stop .pure

lemma spanFrom_local (start : Nat) : (spanFrom start).Local bound X Y :=
  .andThen offset_local fun _ => .pure

/-! ## Constructs -/

/-- A token over the span that has been read. -/
lemma token_local (token : Span → Token) (start : Nat) :
    (do return some (token (← spanFrom start)) : Scan (Option Token)).Local bound X Y :=
  .andThen (spanFrom_local start) fun _ => .pure

lemma declarationGap_local : declarationGap.Local bound X Y := by
  refine .andThen peek_local fun d => ?_
  cases d with
  | none => exact .pure
  | some c =>
      exact .ite spaces_local (.andThen (comesNext_local (by decide)) fun _ =>
        .ite .pure (.andThen offset_local fun _ => local_stop))

lemma externalId_local : externalId.Local bound X Y := by
  refine .andThen (comesNext_local (by decide)) fun _ => .ite ?_ ?_
  · exact .andThen (skip_local _) fun _ => .andThen someSpaces_local fun _ =>
      .andThen quote_local fun mark => .andThen (quotedWith_local mark) fun _ => .pure
  · refine .andThen (comesNext_local (by decide)) fun _ => .ite ?_ .pure
    exact .andThen (skip_local _) fun _ => .andThen someSpaces_local fun _ =>
      .andThen quote_local fun mark => .andThen (quotedWith_local mark) fun _ =>
      .andThen someSpaces_local fun _ => .andThen quote_local fun mark =>
      .andThen (quotedWith_local mark) fun _ => .pure

lemma declaration_local : declaration.Local bound X Y := by
  have ending : (do spaces; literal "?>"; return none : Scan (Option Token)).Local bound X Y :=
    .andThen spaces_local fun _ => .andThen (literal_local (by decide)) fun _ => .pure
  have standalone : (do
      let found ← comesNext "standalone"
      if found then
        skip "standalone".length
        equals
        let mark ← quote
        let start ← offset
        let flag ← name
        if flag != "yes" && flag != "no" then stop (.expectedText ["yes", "no"] start)
        char mark
      spaces
      literal "?>"
      return none : Scan (Option Token)).Local bound X Y := by
    refine .andThen (comesNext_local (by decide)) fun _ => .ite ?_ ending
    exact .andThen (skip_local _) fun _ => .andThen equals_local fun _ =>
      .andThen quote_local fun mark => .andThen offset_local fun _ =>
      .andThen name_local fun _ => .guarded (.andThen (char_local mark) fun _ => ending)
  refine .andThen (skip_local _) fun _ => .andThen spaces_local fun _ =>
    .andThen (literal_local (by decide)) fun _ => .andThen equals_local fun _ =>
    .andThen quote_local fun mark => .andThen (literal_local (by decide)) fun _ =>
    .andThen (run_local _) fun _ => .andThen (char_local mark) fun _ =>
    .andThen declarationGap_local fun _ => .andThen (comesNext_local (by decide)) fun _ =>
    .ite ?_ standalone
  exact .andThen (skip_local _) fun _ => .andThen equals_local fun _ =>
    .andThen quote_local fun mark => .andThen (run_local _) fun _ =>
    .andThen (char_local mark) fun _ => .andThen declarationGap_local fun _ => standalone

lemma comment_local : comment.Local bound X Y :=
  .andThen offset_local fun start => .andThen (skip_local _) fun _ =>
    .andThen (contentBefore_local (by decide)) fun _ =>
      .andThen (literal_local (by decide)) fun _ =>
    .guarded (.guarded (token_local (.comment _) start))

lemma instruction_local : instruction.Local bound X Y :=
  .andThen offset_local fun start => .andThen (skip_local _) fun _ =>
    .andThen name_local fun target => .andThen spaces_local fun _ =>
    .andThen (contentBefore_local (by decide)) fun _ =>
      .andThen (literal_local (by decide)) fun _ =>
    token_local (.instruction target _) start

lemma doctype_local : doctype.Local bound X Y := by
  refine .andThen offset_local fun start => .andThen (skip_local _) fun _ =>
    .andThen someSpaces_local fun _ => .andThen name_local fun rootName =>
    .andThen spaces_local fun _ => .andThen externalId_local fun external =>
    .andThen spaces_local fun _ => .andThen peek_local fun d => ?_
  cases d with
  | none => exact local_stop
  | some c =>
      refine .ite ?_ (.andThen offset_local fun _ => local_stop)
      exact .andThen (skip_local 1) fun _ => token_local (.doctype rootName external _) start

lemma entityValue_local (isGeneral : Bool) : (entityValue isGeneral).Local bound X Y := by
  refine .andThen peek_local fun d => ?_
  cases d with
  | none => exact local_stop
  | some c =>
      refine .ite ?_ (.ite ?_ (.andThen offset_local fun _ => local_stop))
      · exact .andThen quote_local fun mark => .andThen (quotedWith_local mark) fun _ => .pure
      · refine .andThen externalId_local fun external => ?_
        cases external with
        | none => exact local_stop
        | some external =>
            refine .ite ?_ .pure
            refine .andThen spaces_local fun _ => .andThen (comesNext_local (by decide)) fun _ =>
              .ite ?_ .pure
            exact .andThen (skip_local _) fun _ => .andThen someSpaces_local fun _ =>
              .andThen nameOrEnd_local fun _ => .pure

lemma entity_local : entity.Local bound X Y := by
  have value (isGeneral : Bool) : (do
      let _ ← name
      someSpaces
      entityValue isGeneral
      spaces
      char '>'
      return none : Scan (Option Token)).Local bound X Y :=
    .andThen name_local fun _ => .andThen someSpaces_local fun _ =>
      .andThen (entityValue_local isGeneral) fun _ => .andThen spaces_local fun _ =>
      .andThen (char_local _) fun _ => .pure
  refine .andThen (skip_local _) fun _ => .andThen someSpaces_local fun _ =>
    .andThen peek_local fun d => .ite ?_ (value _)
  exact .andThen (skip_local _) fun _ => .andThen someSpaces_local fun _ => value _

lemma subsetEnd_local : subsetEnd.Local bound X Y :=
  .andThen offset_local fun start => .andThen (skip_local _) fun _ =>
    .andThen spaces_local fun _ => .andThen (char_local _) fun _ => token_local .subsetEnd start

lemma cdata_local : cdata.Local bound X Y :=
  .andThen offset_local fun start => .andThen (skip_local _) fun _ =>
    .andThen (contentBefore_local (by decide)) fun _ =>
      .andThen (literal_local (by decide)) fun _ =>
    token_local (.cdata _) start

lemma tagOpen_local : tagOpen.Local bound X Y :=
  .andThen offset_local fun start => .andThen (skip_local _) fun _ =>
    .andThen qualifiedName_local fun tag => token_local (.tagOpen tag) start

lemma endTag_local : endTag.Local bound X Y :=
  .andThen offset_local fun start => .andThen (skip_local _) fun _ =>
    .andThen qualifiedName_local fun tag => .andThen spaces_local fun _ =>
    .andThen (char_local _) fun _ => token_local (.endTag tag) start

lemma text_local : Scan.text.Local bound X Y :=
  .andThen offset_local fun start => .andThen (contentBefore_local (by decide)) fun _ =>
    .guarded (token_local (.text _) start)

/-- The value of an attribute ends at a character that is seen there. -/
lemma value_local (mark : Char) :
    (content fun cs => cs.head? == some mark || cs.head? == some '<').Local bound X Y := by
  refine content_local fun hbound u hu => ?_
  cases u with
  | nil =>
      have hpos := hbound.length_pos
      rw [List.suffix_nil.mp hu] at hpos
      cases hpos
  | cons x u => rfl

lemma tagAttribute_local : tagAttribute.Local bound X Y :=
  .andThen offset_local fun start => .andThen qualifiedName_local fun key =>
    .andThen (spanFrom_local start) fun nameSpan => .andThen equals_local fun _ =>
    .andThen quote_local fun mark => .andThen offset_local fun valueStart =>
    .andThen (value_local mark) fun _ => .andThen (spanFrom_local valueStart) fun valueSpan =>
    .andThen (char_local mark) fun _ => token_local (.attribute key _ nameSpan valueSpan) start

/-- A part of a tag that begins with a character, perhaps a blank, at an offset. -/
def tagPartFrom (first : Char) (o : Nat) : Scan (Option Token) := do
  spaces
  let start ← offset
  match ← peek with
  | some '/' =>
    skip 1
    char '>'
    return some (.tagSelfClose (← spanFrom start))
  | some '>' =>
    skip 1
    return some (.tagClose (← spanFrom start))
  | _ => if isXmlSpace first then tagAttribute else stop (.expectedSpace first o)

/-- Of what comes behind, a part of a tag depends on no more than the first character. -/
lemma tagPart_eq {c : Cursor} {x : Char} {r : List Char} (hc : c.rest = x :: r) :
    tagPart c = tagPartFrom x c.offset c := by
  rw [tagPart, bind_of_ok (a := c) rfl]
  simp only [hc]
  rfl

lemma tagPartFrom_local (first : Char) (o : Nat) : (tagPartFrom first o).Local bound X Y := by
  refine .andThen spaces_local fun _ => .andThen offset_local fun start =>
    .andThen peek_local fun d => ?_
  split
  · exact .andThen (skip_local 1) fun _ => .andThen (char_local '>') fun _ =>
      token_local .tagSelfClose start
  · exact .andThen (skip_local 1) fun _ => token_local .tagClose start
  · exact .ite tagAttribute_local local_stop

lemma tagPart_local : tagPart.Local bound X Y := by
  refine ⟨tagPart_closed.advances, fun c d t c' hcd h hrest => ?_⟩
  obtain ⟨x, r, r', hc, hd⟩ := hcd.exists_cons
  rw [tagPart_eq hc] at h
  rw [tagPart_eq hd, hcd.offset_eq]
  exact (tagPartFrom_local x c.offset).alike c d t c' hcd h hrest

end Scan

/-! ## Steps -/

namespace ScanState

/-- A state with another cursor. -/
def movedTo (s : ScanState) (d : Cursor) : ScanState :=
  { s with cursor := d }

/-- Whether a step that ends in front of the bound has a counterpart that ends alike. -/
def Alike (bound X Y : List Char) (r r' : StepResult) : Prop :=
  ∀ t s', r = .ok (t, s') → X.length + bound.length ≤ s'.cursor.rest.length →
    ∃ d', r' = .ok (t, s'.movedTo d') ∧ s'.cursor.Agrees bound X Y d'

variable {s : ScanState} {d : Cursor}

lemma alike_error {fault : Fault} {r' : StepResult} : Alike bound X Y (.error fault) r' := by
  rintro _ _ ⟨⟩

lemma alike_none (h : s.cursor.Agrees bound X Y d) :
    Alike bound X Y (.ok (none, s)) (.ok (none, s.movedTo d)) := by
  rintro _ _ ⟨⟩ -
  exact ⟨d, rfl, h⟩

lemma read_alike {scan : Scan (Option Token)} (what : Construct) (h : s.cursor.Agrees bound X Y d)
    (hscan : scan.Local bound X Y) :
    Alike bound X Y (s.read what scan) ((s.movedTo d).read what scan) := by
  rw [read]
  cases hread : scan s.cursor with
  | error cause => exact alike_error
  | ok r =>
      obtain ⟨t, c⟩ := r
      rintro _ _ ⟨⟩ hrest
      obtain ⟨d', hd, hagrees⟩ := hscan.alike _ d t c h hread hrest
      exact ⟨d', read_of_ok what hd, hagrees⟩

lemma skipSpaces_alike (h : s.cursor.Agrees bound X Y d) :
    Alike bound X Y s.skipSpaces (s.movedTo d).skipSpaces := by
  intro t s' hskip hrest
  obtain ⟨d', hd, hagrees⟩ :=
    (Scan.spaces_local).alike _ d () s'.cursor h (by cases hskip; rfl) hrest
  cases hskip
  cases hd
  exact ⟨_, rfl, hagrees⟩

/-- What is skipped through a `>` ends at the first one, which is in both texts. -/
lemma skipDeclaration_alike (h : s.cursor.Agrees bound X Y d) :
    Alike bound X Y s.skipDeclaration (s.movedTo d).skipDeclaration := by
  rw [skipDeclaration]
  split_ifs with hbefore
  · rintro _ _ ⟨⟩ hrest
    dsimp only at hrest ⊢
    have hagrees := h.advance hrest
    obtain ⟨u, hbound, -, hc, rfl⟩ := h
    have hpos := hbound.length_pos
    rw [Cursor.advance, List.length_drop, hc, List.length_append] at hrest
    have hsame : (u ++ Y).takeWhile (· != '>') = s.cursor.rest.takeWhile (· != '>') := by
      rw [hc]
      exact Cursor.takeWhile_append (by omega)
    refine ⟨_, ?_, hagrees⟩
    rw [skipDeclaration, movedTo]
    dsimp only
    rw [hsame, if_pos]
    · rfl
    · rw [hc, List.length_append]
      omega
  · exact alike_error

lemma misc_alike {other other' : StepResult} (h : s.cursor.Agrees bound X Y d)
    (ho : Alike bound X Y other other') :
    Alike bound X Y (s.misc other) ((s.movedTo d).misc other') := by
  have hstarts {text : String} (htext : crossesBound text.toList = false) :
      (s.movedTo d).cursor.startsWith text = s.cursor.startsWith text := h.startsWith_eq htext
  have hhead : (s.movedTo d).cursor.rest.head? = s.cursor.rest.head? := h.head?_eq
  rw [misc, misc]
  rw [hstarts (by decide), hstarts (by decide), hstarts (by decide), hhead]
  split_ifs
  · exact read_alike _ h Scan.comment_local
  · exact alike_error
  · exact read_alike _ h Scan.instruction_local
  · exact skipSpaces_alike h
  · exact ho

lemma stepProlog_alike (h : s.cursor.Agrees bound X Y d) :
    Alike bound X Y s.stepProlog (s.movedTo d).stepProlog := by
  have hstarts : (s.movedTo d).cursor.startsWith "<!DOCTYPE" = s.cursor.startsWith "<!DOCTYPE" :=
    h.startsWith_eq (by decide)
  rw [stepProlog, stepProlog, hstarts]
  split_ifs
  · have hread := read_alike .doctype h Scan.doctype_local
    intro t s' hstep hrest
    split at hstep
    · rename_i heq
      cases hstep
      obtain ⟨d', hd, hagrees⟩ := hread _ _ heq hrest
      rw [hd]
      exact ⟨d', rfl, hagrees⟩
    · rename_i hother
      obtain ⟨d', hd, hagrees⟩ := hread _ _ hstep hrest
      refine ⟨d', ?_, hagrees⟩
      rw [hd]
      split
      · rename_i heq
        cases heq
        exact absurd hstep (hother _ _ _ _ _)
      · rfl
  · exact misc_alike h (alike_none (s := s.into .beforeRoot) h)

lemma stepSubset_alike (h : s.cursor.Agrees bound X Y d) :
    Alike bound X Y s.stepSubset (s.movedTo d).stepSubset := by
  have hstarts {text : String} (htext : crossesBound text.toList = false) :
      (s.movedTo d).cursor.startsWith text = s.cursor.startsWith text := h.startsWith_eq htext
  rw [stepSubset, stepSubset]
  rw [hstarts (by decide), hstarts (by decide), hstarts (by decide), hstarts (by decide),
    hstarts (by decide)]
  split_ifs
  · exact read_alike _ h Scan.entity_local
  · exact read_alike (s := s.into .beforeRoot) _ h Scan.subsetEnd_local
  · exact skipDeclaration_alike h
  · exact misc_alike h alike_error

lemma stepBeforeRoot_alike (h : s.cursor.Agrees bound X Y d) :
    Alike bound X Y s.stepBeforeRoot (s.movedTo d).stepBeforeRoot := by
  have hstarts {text : String} (htext : crossesBound text.toList = false) :
      (s.movedTo d).cursor.startsWith text = s.cursor.startsWith text := h.startsWith_eq htext
  rw [stepBeforeRoot, stepBeforeRoot, hstarts (by decide), hstarts (by decide)]
  refine misc_alike h ?_
  split_ifs
  · exact alike_error
  · exact read_alike (s := s.into .insideTag) _ h Scan.tagOpen_local
  · exact alike_error

/-- Where something is opened in front of the bound there is more than one character left. -/
lemma one_lt_length (h : s.cursor.Agrees bound X Y d) (hopens : s.cursor.startsWith "<" = true) :
    s.cursor.rest.length ≠ 1 ∧ d.rest.length ≠ 1 := by
  obtain ⟨u, hbound, hu, hc, rfl⟩ := h
  have hlong : 1 < u.length := by
    cases hbound with
    | mark hmark =>
        cases u with
        | nil => cases List.suffix_nil.mp hu
        | cons x u =>
            cases u with
            | nil =>
                -- what is opened is not the mark
                rcases List.suffix_cons_iff.mp hu with heq | hnil
                · rw [Cursor.startsWith, hc, ← heq] at hopens
                  have hopened := List.isPrefixOf_iff_prefix.mp hopens
                  rw [show "<".toList = ['<'] from rfl, List.singleton_append,
                    List.cons_prefix_cons] at hopened
                  rw [← hopened.1] at hmark
                  cases hmark
                · cases List.suffix_nil.mp hnil
            | cons y u => simp
    | opening => exact hu.length_le
  rw [hc]
  simp only [List.length_append]
  omega

lemma stepContent_alike (h : s.cursor.Agrees bound X Y d) :
    Alike bound X Y s.stepContent (s.movedTo d).stepContent := by
  have hstarts {text : String} (htext : crossesBound text.toList = false) :
      (s.movedTo d).cursor.startsWith text = s.cursor.startsWith text := h.startsWith_eq htext
  rw [stepContent, stepContent]
  dsimp only
  rw [hstarts (by decide), hstarts (by decide), hstarts (by decide), hstarts (by decide),
    hstarts (by decide), hstarts (by decide), hstarts (by decide)]
  split_ifs with _ _ _ _ _ hopens hone hone'
  · exact read_alike _ h Scan.comment_local
  · exact read_alike _ h Scan.cdata_local
  · exact alike_error
  · exact read_alike _ h Scan.instruction_local
  · exact read_alike (s := { s with depth := s.depth - 1, mode := afterTag (s.depth - 1) }) _ h
      Scan.endTag_local
  · exact alike_error
  · exact alike_error
  · exact absurd ‹_› (one_lt_length h hopens).2
  · exact read_alike (s := s.into .insideTag) _ h Scan.tagOpen_local
  · exact read_alike _ h Scan.text_local

lemma stepInsideTag_alike (h : s.cursor.Agrees bound X Y d) :
    Alike bound X Y s.stepInsideTag (s.movedTo d).stepInsideTag := by
  have hread := read_alike .attribute h Scan.tagPart_local
  rw [stepInsideTag, stepInsideTag]
  intro t s' hstep hrest
  split at hstep
  · rename_i heq
    cases hstep
    obtain ⟨d', hd, hagrees⟩ := hread _ _ heq hrest
    rw [hd]
    exact ⟨d', rfl, hagrees⟩
  · rename_i heq
    cases hstep
    obtain ⟨d', hd, hagrees⟩ := hread _ _ heq hrest
    rw [hd]
    exact ⟨d', rfl, hagrees⟩
  · rename_i hclose hself
    obtain ⟨d', hd, hagrees⟩ := hread _ _ hstep hrest
    refine ⟨d', ?_, hagrees⟩
    rw [hd]
    split
    · rename_i heq
      cases heq
      exact absurd hstep (hclose _ _)
    · rename_i heq
      cases heq
      exact absurd hstep (hself _ _)
    · rfl

/-- **Each step that ends in front of the bound is the same in both texts.** -/
theorem step_alike (h : s.cursor.Agrees bound X Y d) :
    Alike bound X Y s.step (s.movedTo d).step := by
  have hstarts : (s.movedTo d).cursor.startsWith "<?xml " = s.cursor.startsWith "<?xml " :=
    h.startsWith_eq (by decide)
  have hmode : (s.movedTo d).mode = s.mode := rfl
  rw [step, step, hmode, hstarts]
  cases s.mode with
  | declaration =>
      dsimp only
      split_ifs
      · exact read_alike (s := s.into .prolog) _ h Scan.declaration_local
      · exact alike_none (s := s.into .prolog) h
  | prolog => exact stepProlog_alike h
  | subset => exact stepSubset_alike h
  | beforeRoot => exact stepBeforeRoot_alike h
  | content => exact stepContent_alike h
  | insideTag => exact stepInsideTag_alike h
  | epilog => exact misc_alike h alike_error

end ScanState

end XmlAdvisor
