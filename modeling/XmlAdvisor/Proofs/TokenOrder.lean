import XmlAdvisor.Proofs.Scanning
import Mathlib.Data.List.Basic

/-!
# The order of tokens

What a reader of the tokens may rely on: they come in the order of the text, each behind the one
before it, and only where they make sense.

**Phases.**  Before the document element there are no tags, inside a start tag there are only
attributes and its end, and after the first tag there is no document type any more
(`Token.next?`).  The modes of the scanner are finer than these three phases (`Mode.phase`).

**Places.**  A token covers the text from where it begins to where the scanner stands after it, and
the scanner never goes past the end of the text.  A scan ends inside the text when its last step
reads something that is there (`Scan.Lands`), whatever it skipped before.

* `Token.WellRead` — what else a reader relies on: an opening is not empty, the end of a start tag
  is one character long, and a document type has a name.
* `Follow` — whether tokens follow one another.
* **`follow_scanAll`** — the tokens of every text do.
-/

namespace XmlAdvisor

/-! ## Phases -/

/-- The parts of a document that differ in the tokens that may come. -/
inductive Phase
  /-- Before the document element. -/
  | head
  /-- Inside a start tag. -/
  | tag
  /-- After the first start tag. -/
  | body
  deriving DecidableEq, Repr

/-- The phase that a token leads to, if it may come in the given one. -/
def Token.next? : Token → Phase → Option Phase
  | .doctype _ _ _ _, .head | .subsetEnd _, .head => some .head
  | .comment _ _, .head | .instruction _ _ _, .head => some .head
  | .comment _ _, .body | .instruction _ _ _, .body => some .body
  | .cdata _ _, .body | .text _ _, .body | .endTag _ _, .body => some .body
  | .tagOpen _ _, .head | .tagOpen _ _, .body => some .tag
  | .attribute _ _ _ _ _, .tag => some .tag
  | .tagClose _, .tag | .tagSelfClose _, .tag => some .body
  | _, _ => none

/-- What a reader relies on beside the place of a token. -/
def Token.WellRead : Token → Prop
  | .tagOpen _ span => span.start < span.stop
  | .tagClose span => span.stop = span.start + 1
  | .doctype name _ _ _ => name ≠ ""
  | _ => True

/-- Whether tokens follow one another, from a phase and an offset on, in a text of some length. -/
inductive Follow (length : Nat) : Phase → Nat → List Token → Prop
  | nil {phase : Phase} {now : Nat} (inside : now ≤ length) : Follow length phase now []
  | cons {phase phase' : Phase} {now : Nat} {t : Token} {rest : List Token}
      (next : t.next? phase = some phase') (behind : now ≤ t.span.start)
      (ordered : t.span.start ≤ t.span.stop) (read : t.WellRead)
      (more : Follow length phase' t.span.stop rest) : Follow length phase now (t :: rest)

/-- What follows an offset also follows those before it. -/
lemma Follow.mono {length now now' : Nat} {phase : Phase} {tokens : List Token}
    (h : Follow length phase now tokens) (hle : now' ≤ now) : Follow length phase now' tokens := by
  cases h with
  | nil inside => exact .nil (Nat.le_trans hle inside)
  | cons next behind ordered read more =>
      exact .cons next (Nat.le_trans hle behind) ordered read more

/-! ## Scans that end inside the text -/

namespace Cursor

variable {c : Cursor} {text : List Char}

/-- A cursor with something left to read stands before the end of the text. -/
lemma ReadsFrom.add_length_le (h : c.ReadsFrom text) (hne : c.rest ≠ []) :
    c.offset + c.rest.length ≤ text.length := by
  rw [ReadsFrom] at h
  have hpos := List.length_pos_iff.mpr hne
  rw [h, List.length_drop] at hpos ⊢
  omega

/-- From a cursor inside the text, no more is left than the text has. -/
lemma ReadsFrom.add_length_le_of_le (h : c.ReadsFrom text) (hle : c.offset ≤ text.length) :
    c.offset + c.rest.length ≤ text.length := by
  rw [ReadsFrom] at h
  rw [h, List.length_drop]
  omega

end Cursor

namespace Scan

variable {α β : Type} {text : List Char} {start : Nat} {P : Option Token → Prop}

/-- A scan that does not stop ends inside the text, because it read something there. -/
def Lands (text : List Char) (m : Scan α) : Prop :=
  ∀ c a c', c.ReadsFrom text → m c = .ok (a, c') → c'.offset ≤ text.length

/-- A scan does not leave the text if it begins there. -/
def Stays (text : List Char) (m : Scan α) : Prop :=
  ∀ c a c', c.ReadsFrom text → c.offset ≤ text.length → m c = .ok (a, c') →
    c'.offset ≤ text.length

lemma char_lands (d : Char) : (char d).Lands text := by
  intro c a c' hc h
  obtain ⟨found, c₁, hpeek, h⟩ := bind_ok h
  cases hpeek
  cases hrest : c.rest with
  | nil =>
      simp only [hrest, List.head?_nil] at h
      cases h
  | cons e rest =>
      simp only [hrest, List.head?_cons] at h
      split_ifs at h
      · cases h
        have hle := hc.add_length_le (by simp [hrest])
        rw [hrest, List.length_cons] at hle
        simp only [Cursor.advance]
        omega
      · obtain ⟨_, _, ⟨⟩, h⟩ := bind_ok h
        cases h

lemma literal_lands {s : String} (hs : s.toList ≠ []) : (literal s).Lands text := by
  intro c a c' hc h
  obtain ⟨found, c₁, hnext, h⟩ := bind_ok h
  cases hnext
  split_ifs at h with hfound
  · cases h
    have hle : s.toList <+: c.rest := List.isPrefixOf_iff_prefix.mp hfound
    have hne : c.rest ≠ [] := by
      intro hnil
      rw [hnil, List.prefix_nil] at hle
      exact hs hle
    have hread := hc.add_length_le hne
    have hlength := hle.length_le
    rw [String.length_toList] at hlength
    simp only [Cursor.advance]
    omega
  · obtain ⟨_, _, ⟨⟩, h⟩ := bind_ok h
    cases h

lemma run_stays (p : Char → Bool) : (run p).Stays text := by
  intro c cs c' hc hinside h
  obtain ⟨_, _, ⟨⟩, h⟩ := bind_ok h
  cases h
  have hle := hc.add_length_le_of_le hinside
  have hcs := (List.takeWhile_prefix p (l := c.rest)).length_le
  simp only [Cursor.advance]
  omega

lemma spaces_stays : spaces.Stays text := by
  intro c a c' hc hinside h
  obtain ⟨cs, _, hrun, h⟩ := bind_ok h
  cases h
  exact run_stays _ c cs _ hc hinside hrun

lemma contentUntil_length_le (last : List Char → Bool) (o : Nat) {cs read : List Char}
    (h : contentUntil last o cs = .ok read) : read.length ≤ cs.length := by
  induction cs generalizing o read with
  | nil =>
      cases h
      exact Nat.le_refl _
  | cons c cs ih =>
      rw [contentUntil] at h
      split_ifs at h
      · cases h
        exact Nat.zero_le _
      · cases hmore : contentUntil last (o + 1) cs with
        | error cause =>
            rw [hmore] at h
            cases h
        | ok more =>
            rw [hmore] at h
            cases h
            exact Nat.succ_le_succ (ih (o + 1) hmore)

lemma content_stays (last : List Char → Bool) : (content last).Stays text := by
  intro c cs c' hc hinside h
  obtain ⟨_, _, ⟨⟩, h⟩ := bind_ok h
  obtain ⟨read, c₁, hread, h⟩ := bind_ok h
  have hle := hc.add_length_le_of_le hinside
  cases hcontent : contentUntil last c.offset c.rest with
  | error cause =>
      rw [hcontent] at hread
      cases hread
  | ok cs =>
      rw [hcontent] at hread
      cases hread
      cases h
      have hcs := contentUntil_length_le last c.offset hcontent
      simp only [Cursor.advance]
      omega

lemma qualifiedName_lands : qualifiedName.Lands text := by
  intro c n c' hc h
  have hfits := qualifiedName_fits h
  have hne : c.rest ≠ [] := List.length_pos_iff.mp (Nat.lt_of_lt_of_le hfits.1 hfits.2)
  have hle := hc.add_length_le hne
  obtain ⟨cs, c₁, hrun, h⟩ := bind_ok h
  have hin := run_stays isNameChar c cs c₁ hc (by omega) hrun
  dsimp only at h
  split_ifs at h
  · cases h
  · cases h
    exact hin

/-! ## Putting the end of a construct together -/

/-- What is left of a scan does not move the cursor; its outcome has a property, and a token goes
from `start` to there. -/
def Ends (start : Nat) (P : Option Token → Prop) (m : Scan (Option Token)) : Prop :=
  ∀ c t c', m c = .ok (t, c') → c' = c ∧ P t ∧ ∀ x ∈ t, x.span = ⟨start, c.offset⟩

lemma Ends.guarded {p : Prop} [Decidable p] {cause : Cause} {next : Unit → Scan (Option Token)}
    (h : (next ()).Ends start P) :
    Ends start P (if p then stop cause >>= next else next ()) := by
  split_ifs
  · intro c t c' hstop
    obtain ⟨_, _, ⟨⟩, _⟩ := bind_ok hstop
  · exact h

lemma ends_none (h : P none) : Ends start P (Pure.pure none) := by
  rintro c _ _ ⟨⟩
  exact ⟨rfl, h, by rintro x ⟨⟩⟩

lemma ends_token {token : Span → Token} (hspan : ∀ span, (token span).span = span)
    (h : ∀ stop, P (some (token ⟨start, stop⟩))) :
    Ends start P (do return some (token (← spanFrom start))) := by
  intro c t c' hread
  obtain ⟨span, c₁, hstop, hread⟩ := bind_ok hread
  cases hstop
  cases hread
  refine ⟨rfl, h _, ?_⟩
  rintro _ ⟨⟩
  exact hspan _

/-- A scan goes on from behind `start` and ends inside the text; its outcome has a property, and a
token goes from `start` to where the scan ends. -/
def Closes (text : List Char) (start : Nat) (P : Option Token → Prop) (m : Scan (Option Token)) :
    Prop :=
  ∀ c t c', c.ReadsFrom text → start ≤ c.offset → m c = .ok (t, c') →
    c.offset ≤ c'.offset ∧ c'.ReadsFrom text ∧ c'.offset ≤ text.length ∧ P t ∧
      ∀ x ∈ t, x.span = ⟨start, c'.offset⟩

lemma Closes.ite {p : Prop} [Decidable p] {m m' : Scan (Option Token)}
    (h : m.Closes text start P) (h' : m'.Closes text start P) :
    (if p then m else m').Closes text start P := by
  split_ifs
  · exact h
  · exact h'

lemma Closes.bind {Q : α → Prop} {m : Scan α} {f : α → Scan (Option Token)} (hm : m.Yields Q)
    (hf : ∀ a, Q a → (f a).Closes text start P) : (m >>= f).Closes text start P := by
  intro c t c'' hc hstart h
  obtain ⟨a, c', hmc, hfa⟩ := bind_ok h
  obtain ⟨⟨n, rfl⟩, ha⟩ := hm c a c' hmc
  have hle : c.offset ≤ (c.advance n).offset := Nat.le_add_right _ _
  obtain ⟨hmove, hread⟩ := hf a ha _ t c'' (hc.advance n) (Nat.le_trans hstart hle) hfa
  exact ⟨Nat.le_trans hle hmove, hread⟩

lemma Closes.andThen {m : Scan α} {f : α → Scan (Option Token)} (hm : m.Advances)
    (hf : ∀ a, (f a).Closes text start P) : (m >>= f).Closes text start P :=
  .bind hm fun a _ => hf a

lemma Closes.guarded {p : Prop} [Decidable p] {cause : Cause} {next : Unit → Scan (Option Token)}
    (h : (next ()).Closes text start P) :
    Closes text start P (if p then stop cause >>= next else next ()) := by
  refine .ite ?_ h
  intro c t c' _ _ hstop
  obtain ⟨_, _, ⟨⟩, _⟩ := bind_ok hstop

/-- The last step that moves the cursor reads something that is there. -/
lemma Closes.last {m : Scan α} {f : α → Scan (Option Token)} (hm : m.Advances)
    (hlands : m.Lands text) (hf : ∀ a, (f a).Ends start P) : (m >>= f).Closes text start P := by
  intro c t c'' hc hstart h
  obtain ⟨a, c', hmc, hfa⟩ := bind_ok h
  have hinside := hlands c a c' hc hmc
  obtain ⟨⟨n, rfl⟩, -⟩ := hm c a c' hmc
  obtain ⟨rfl, htoken⟩ := hf a _ t c'' hfa
  exact ⟨Nat.le_add_right _ _, hc.advance n, hinside, htoken⟩

/-- The last step that moves the cursor goes over a character that was seen there. -/
lemma Closes.lastSeen {m : Scan (Option Token)} (hm : m.Ends start P) {c c' : Cursor}
    {t : Option Token} {d : Char} (hc : c.ReadsFrom text) (hd : c.rest.head? = some d)
    (h : (skip 1 >>= fun _ => m) c = .ok (t, c')) :
    c' = c.advance 1 ∧ c'.ReadsFrom text ∧ c'.offset ≤ text.length ∧ P t ∧
      ∀ x ∈ t, x.span = ⟨start, c'.offset⟩ := by
  obtain ⟨_, _, ⟨⟩, h⟩ := bind_ok h
  obtain ⟨rfl, htoken⟩ := hm _ t c' h
  have hne : c.rest ≠ [] := by
    intro hnil
    rw [hnil] at hd
    cases hd
  have hle := hc.add_length_le hne
  have hpos := List.length_pos_iff.mpr hne
  refine ⟨rfl, hc.advance 1, ?_, htoken⟩
  simp only [Cursor.advance]
  omega

/-! ## Constructs -/

/-- A scan that starts inside the text ends there.  Its outcome has a property, and a token covers
what lies between, perhaps without the blanks at the start. -/
def Covers (text : List Char) (P : Option Token → Prop) (m : Scan (Option Token)) : Prop :=
  ∀ c t c', c.ReadsFrom text → c.offset ≤ text.length → m c = .ok (t, c') →
    c.offset ≤ c'.offset ∧ c'.ReadsFrom text ∧ c'.offset ≤ text.length ∧ P t ∧
      ∀ x ∈ t, c.offset ≤ x.span.start ∧ x.span.start ≤ x.span.stop ∧ x.span.stop = c'.offset

lemma Closes.covers {m : Nat → Scan (Option Token)} (h : ∀ start, (m start).Closes text start P) :
    Covers text P (do m (← offset)) := by
  intro c t c' hc _ hread
  obtain ⟨start, _, ⟨⟩, hread⟩ := bind_ok hread
  obtain ⟨hmove, hrest, hinside, hP, hspan⟩ := h c.offset c t c' hc (Nat.le_refl _) hread
  refine ⟨hmove, hrest, hinside, hP, fun x hx => ?_⟩
  rw [hspan x hx]
  exact ⟨Nat.le_refl _, hmove, rfl⟩

/-- Whether the outcome of a construct fits between two phases: without a token, the phase stays as
it is. -/
def Leads (phase phase' : Phase) : Option Token → Prop
  | none => phase' = phase
  | some x => x.WellRead ∧ x.next? phase = some phase'

lemma comment_covers {phase : Phase} (h : phase ≠ .tag) :
    comment.Covers text (Leads phase phase) := by
  have htoken : ∀ s span, Leads phase phase (some (.comment s span)) := by
    refine fun s span => ⟨trivial, ?_⟩
    cases phase with
    | tag => exact absurd rfl h
    | _ => rfl
  exact Closes.covers fun start => .andThen (skip_advances _) fun _ =>
    .andThen (content_advances _) fun cs => .last (literal_advances _) (literal_lands (by decide))
    fun _ => .guarded (.guarded (ends_token (fun _ => rfl) fun _ => htoken _ _))

lemma instruction_covers {phase : Phase} (h : phase ≠ .tag) :
    instruction.Covers text (Leads phase phase) := by
  have htoken : ∀ target data span, Leads phase phase (some (.instruction target data span)) := by
    refine fun target data span => ⟨trivial, ?_⟩
    cases phase with
    | tag => exact absurd rfl h
    | _ => rfl
  exact Closes.covers fun start => .andThen (skip_advances _) fun _ =>
    .andThen name_advances fun target => .andThen spaces_advances fun _ =>
    .andThen (content_advances _) fun _ => .last (literal_advances _) (literal_lands (by decide))
    fun _ => ends_token (fun _ => rfl) fun _ => htoken _ _ _

/-- The XML declaration has no token and thus covers what it skips, whatever that is. -/
lemma covers_of_closes_zero {m : Scan (Option Token)} (h : m.Closes text 0 (· = none))
    {phase : Phase} :
    m.Covers text (Leads phase phase) := by
  intro c t c' hc _ hread
  obtain ⟨hmove, hrest, hinside, rfl, -⟩ := h c t c' hc (Nat.zero_le _) hread
  exact ⟨hmove, hrest, hinside, rfl, by rintro x ⟨⟩⟩

lemma declaration_covers {phase : Phase} : declaration.Covers text (Leads phase phase) := by
  have ending : (do spaces; literal "?>"; return none : Scan (Option Token)).Closes text 0
      (· = none) :=
    .andThen spaces_advances fun _ => .last (literal_advances _) (literal_lands (by decide))
      fun _ => ends_none rfl
  have standalone : (do
      let found ← comesNext "standalone"
      if found then
        skip "standalone".length
        equals
        let mark ← quote
        let start ← offset
        let flag ← name
        if flag != "yes" && flag != "no" then stop (.expectedText ["yes", "no"] start)
        char mark
      spaces
      literal "?>"
      return none : Scan (Option Token)).Closes text 0 (· = none) := by
    refine .andThen (comesNext_advances _) fun _ => .ite ?_ ending
    exact .andThen (skip_advances _) fun _ => .andThen equals_advances fun _ =>
      .andThen quote_advances fun mark => .andThen offset_advances fun _ =>
      .andThen name_advances fun _ => .guarded (.andThen (char_advances mark) fun _ => ending)
  apply covers_of_closes_zero
  refine .andThen (skip_advances _) fun _ => .andThen spaces_advances fun _ =>
    .andThen (literal_advances _) fun _ => .andThen equals_advances fun _ =>
    .andThen quote_advances fun mark => .andThen (literal_advances _) fun _ =>
    .andThen (run_advances _) fun _ => .andThen (char_advances mark) fun _ =>
    .andThen declarationGap_advances fun _ => .andThen (comesNext_advances _) fun _ =>
    .ite ?_ standalone
  exact .andThen (skip_advances _) fun _ => .andThen equals_advances fun _ =>
    .andThen quote_advances fun mark => .andThen (run_advances _) fun _ =>
    .andThen (char_advances mark) fun _ => .andThen declarationGap_advances fun _ => standalone

lemma entity_covers {phase : Phase} : entity.Covers text (Leads phase phase) := by
  have value (isGeneral : Bool) : (do
      let _ ← name
      someSpaces
      entityValue isGeneral
      spaces
      char '>'
      return none : Scan (Option Token)).Closes text 0 (· = none) :=
    .andThen name_advances fun _ => .andThen someSpaces_advances fun _ =>
      .andThen (entityValue_advances isGeneral) fun _ => .andThen spaces_advances fun _ =>
      .last (char_advances _) (char_lands _) fun _ => ends_none rfl
  apply covers_of_closes_zero
  refine .andThen (skip_advances _) fun _ => .andThen someSpaces_advances fun _ =>
    .andThen peek_advances fun d => .ite ?_ (value _)
  exact .andThen (skip_advances _) fun _ => .andThen someSpaces_advances fun _ => value _

/-- A name is not empty. -/
lemma name_yields : name.Yields (· ≠ "") := by
  refine .andThen nameOrEnd_advances fun cs => ?_
  cases cs with
  | nil => exact yields_stop
  | cons c cs =>
      refine .pure fun hempty => ?_
      have hnil := congrArg String.toList hempty
      rw [String.toList_ofList] at hnil
      cases hnil

lemma doctype_covers : doctype.Covers text (Leads .head .head) := by
  refine Closes.covers fun start => .andThen (skip_advances _) fun _ =>
    .andThen someSpaces_advances fun _ => .bind name_yields fun rootName hname =>
    .andThen spaces_advances fun _ => .andThen externalId_advances fun external =>
    .andThen spaces_advances fun _ => ?_
  intro c t c' hc hstart h
  obtain ⟨found, _, hpeek, h⟩ := bind_ok h
  cases hpeek
  cases hd : c.rest.head? with
  | none =>
      rw [hd] at h
      cases h
  | some d =>
      rw [hd] at h
      dsimp only at h
      split_ifs at h
      · have htoken : ∀ stop, Leads .head .head
            (some (.doctype rootName external (d == '[') ⟨start, stop⟩)) :=
          fun stop => ⟨hname, rfl⟩
        obtain ⟨rfl, hrest⟩ := Closes.lastSeen (ends_token (fun _ => rfl) htoken) hc hd h
        exact ⟨Nat.le_add_right _ _, hrest⟩
      · obtain ⟨_, _, ⟨⟩, h⟩ := bind_ok h
        cases h

lemma subsetEnd_covers : subsetEnd.Covers text (Leads .head .head) :=
  Closes.covers fun _ => .andThen (skip_advances _) fun _ => .andThen spaces_advances fun _ =>
    .last (char_advances _) (char_lands _) fun _ =>
    ends_token (fun _ => rfl) fun _ => ⟨trivial, rfl⟩

lemma cdata_covers : cdata.Covers text (Leads .body .body) :=
  Closes.covers fun _ => .andThen (skip_advances _) fun _ =>
    .andThen (content_advances _) fun _ => .last (literal_advances _) (literal_lands (by decide))
    fun _ => ends_token (fun _ => rfl) fun _ => ⟨trivial, rfl⟩

lemma endTag_covers : endTag.Covers text (Leads .body .body) :=
  Closes.covers fun _ => .andThen (skip_advances _) fun _ =>
    .andThen qualifiedName_advances fun _ => .andThen spaces_advances fun _ =>
    .last (char_advances _) (char_lands _) fun _ =>
    ends_token (fun _ => rfl) fun _ => ⟨trivial, rfl⟩

lemma text_covers : Scan.text.Covers text (Leads .body .body) := by
  intro c t c' hc hinside h
  obtain ⟨start, _, ⟨⟩, h⟩ := bind_ok h
  obtain ⟨cs, c₁, hcontent, h⟩ := bind_ok h
  have hin := content_stays _ c cs c₁ hc hinside hcontent
  obtain ⟨⟨n, rfl⟩, -⟩ := content_advances _ c cs c₁ hcontent
  have hends (stop : Nat) : Leads .body .body (some (.text (String.ofList cs) ⟨c.offset, stop⟩)) :=
    ⟨trivial, rfl⟩
  obtain ⟨rfl, hP, hspan⟩ := Ends.guarded (ends_token (fun _ => rfl) hends) _ t c' h
  have hmove : c.offset ≤ (c.advance n).offset := Nat.le_add_right _ _
  refine ⟨hmove, hc.advance n, hin, hP, fun x hx => ?_⟩
  rw [hspan x hx]
  exact ⟨Nat.le_refl _, hmove, rfl⟩

lemma tagOpen_covers {phase : Phase} (hphase : phase ≠ .tag) :
    tagOpen.Covers text (Leads phase .tag) := by
  intro c t c' hc _ h
  obtain ⟨start, _, ⟨⟩, h⟩ := bind_ok h
  obtain ⟨_, _, ⟨⟩, h⟩ := bind_ok h
  obtain ⟨name, c₁, hname, h⟩ := bind_ok h
  have hin := qualifiedName_lands _ name c₁ (hc.advance 1) hname
  obtain ⟨⟨n, rfl⟩, -⟩ := qualifiedName_advances _ name c₁ hname
  obtain ⟨span, _, ⟨⟩, h⟩ := bind_ok h
  cases h
  have hmove : c.offset < ((c.advance 1).advance n).offset := by
    simp only [Cursor.advance]
    omega
  refine ⟨Nat.le_of_lt hmove, (hc.advance 1).advance n, hin, ⟨hmove, ?_⟩, ?_⟩
  · cases phase with
    | tag => exact absurd rfl hphase
    | _ => rfl
  · rintro _ ⟨⟩
    exact ⟨Nat.le_refl _, Nat.le_of_lt hmove, rfl⟩

/-- What may stand inside a start tag. -/
def InTag : Option Token → Prop
  | some (.attribute _ _ _ _ _) | some (.tagSelfClose _) => True
  | some (.tagClose span) => span.stop = span.start + 1
  | _ => False

lemma tagAttribute_covers : tagAttribute.Covers text InTag :=
  Closes.covers fun start => .andThen qualifiedName_advances fun _ =>
    .andThen (spanFrom_advances start) fun _ => .andThen equals_advances fun _ =>
    .andThen quote_advances fun mark => .andThen offset_advances fun valueStart =>
    .andThen (content_advances _) fun _ =>
    .andThen (spanFrom_advances valueStart) fun _ => .last (char_advances mark) (char_lands _)
    fun _ => ends_token (fun _ => rfl) fun _ => trivial

/-- Where the blanks in front of a part of a tag end, the rest is read. -/
lemma tagPart_covers : tagPart.Covers text InTag := by
  intro c t c' hc hinside h
  obtain ⟨before, _, ⟨⟩, h⟩ := bind_ok h
  obtain ⟨_, c₁, hspaces, h⟩ := bind_ok h
  have hin := spaces_stays c _ c₁ hc hinside hspaces
  obtain ⟨⟨n, rfl⟩, -⟩ := spaces_advances c _ c₁ hspaces
  obtain ⟨start, _, ⟨⟩, h⟩ := bind_ok h
  obtain ⟨found, _, hpeek, h⟩ := bind_ok h
  cases hpeek
  have hread : (c.advance n).ReadsFrom text := hc.advance n
  have hle : c.offset ≤ (c.advance n).offset := Nat.le_add_right _ _
  generalize c.advance n = c₁ at h hin hread hle
  generalize hseen : c₁.rest.head? = found at h
  split at h
  · have hends (stop : Nat) : InTag (some (.tagSelfClose ⟨c₁.offset, stop⟩)) := trivial
    have hcloses : Closes text c₁.offset InTag _ := .andThen (skip_advances 1) fun _ =>
      .last (char_advances '>') (char_lands _) fun _ => ends_token (fun _ => rfl) hends
    obtain ⟨hmove, hrest, hstop, hP, hspan⟩ := hcloses c₁ t c' hread (Nat.le_refl _) h
    refine ⟨Nat.le_trans hle hmove, hrest, hstop, hP, fun x hx => ?_⟩
    rw [hspan x hx]
    exact ⟨hle, hmove, rfl⟩
  · obtain ⟨_, _, ⟨⟩, h⟩ := bind_ok h
    obtain ⟨span, _, ⟨⟩, h⟩ := bind_ok h
    cases h
    have hne : c₁.rest ≠ [] := by
      intro hnil
      rw [hnil] at hseen
      cases hseen
    have hlong := hread.add_length_le hne
    have hpos := List.length_pos_iff.mpr hne
    refine ⟨Nat.le_succ_of_le hle, hread.advance 1, ?_, rfl, ?_⟩
    · simp only [Cursor.advance]
      omega
    · rintro _ ⟨⟩
      exact ⟨hle, Nat.le_succ _, rfl⟩
  · generalize c.rest = blanks at h
    split at h
    · cases h
    · split_ifs at h
      · obtain ⟨hmove, hrest, hstop, hP, hspan⟩ := tagAttribute_covers c₁ t c' hread hin h
        refine ⟨Nat.le_trans hle hmove, hrest, hstop, hP, fun x hx => ?_⟩
        obtain ⟨hstart, hordered, heq⟩ := hspan x hx
        exact ⟨Nat.le_trans hle hstart, hordered, heq⟩
      · cases h

end Scan

/-! ## Modes -/

/-- The phase that a mode belongs to. -/
def Mode.phase : Mode → Phase
  | .declaration | .prolog | .subset | .beforeRoot => .head
  | .insideTag => .tag
  | .content | .epilog => .body

namespace ScanState

variable {text : List Char} {s : ScanState}

/-- Whether a cursor stands in front of a rest of the text, not past its end. -/
def Within (text : List Char) (s : ScanState) : Prop :=
  s.cursor.ReadsFrom text ∧ s.cursor.offset ≤ text.length

/-- A step that does not fail moves on inside the text, and what it read fits between the phase from
which it began and the one in which it ends. -/
def Orderly (text : List Char) (phase : Phase) (now : Nat) (r : StepResult) : Prop :=
  ∀ t s', r = .ok (t, s') → now ≤ s'.cursor.offset ∧ s'.Within text ∧
    Scan.Leads phase s'.mode.phase t ∧
    ∀ x ∈ t, now ≤ x.span.start ∧ x.span.start ≤ x.span.stop ∧ x.span.stop = s'.cursor.offset

variable {phase : Phase} {now : Nat}

lemma orderly_error (fault : Fault) : Orderly text phase now (.error fault) := by
  rintro _ _ ⟨⟩

lemma orderly_none (h : s.Within text) (hnow : now ≤ s.cursor.offset)
    (hphase : s.mode.phase = phase) : Orderly text phase now (.ok (none, s)) := by
  rintro _ _ ⟨⟩
  exact ⟨hnow, h, hphase, by rintro x ⟨⟩⟩

lemma read_orderly {scan : Scan (Option Token)} (what : Construct) (h : s.Within text)
    (hscan : scan.Covers text (Scan.Leads phase s.mode.phase)) :
    Orderly text phase s.cursor.offset (s.read what scan) := by
  rw [read]
  cases hr : scan s.cursor with
  | error cause => exact orderly_error _
  | ok r =>
      obtain ⟨t, c⟩ := r
      obtain ⟨hmove, hread, hin, hP, hspan⟩ := hscan _ t c h.1 h.2 hr
      rintro _ _ ⟨⟩
      exact ⟨hmove, ⟨hread, hin⟩, hP, hspan⟩

lemma skipSpaces_orderly (h : s.Within text) :
    Orderly text s.mode.phase s.cursor.offset s.skipSpaces := by
  refine orderly_none ⟨h.1.advance _, ?_⟩ (Nat.le_add_right _ _) rfl
  have hle := h.1.add_length_le_of_le h.2
  have hcs := (List.takeWhile_prefix isXmlSpace (l := s.cursor.rest)).length_le
  simp only [Cursor.advance]
  omega

lemma skipDeclaration_orderly (h : s.Within text) :
    Orderly text s.mode.phase s.cursor.offset s.skipDeclaration := by
  rw [skipDeclaration]
  split_ifs with hlt
  · refine orderly_none ⟨h.1.advance _, ?_⟩ (Nat.le_add_right _ _) rfl
    have hle := h.1.add_length_le_of_le h.2
    simp only [Cursor.advance]
    omega
  · exact orderly_error _

lemma misc_orderly {other : StepResult} (h : s.Within text) (hphase : s.mode.phase ≠ .tag)
    (ho : Orderly text s.mode.phase s.cursor.offset other) :
    Orderly text s.mode.phase s.cursor.offset (s.misc other) := by
  rw [misc]
  split_ifs
  · exact read_orderly _ h (Scan.comment_covers hphase)
  · exact orderly_error _
  · exact read_orderly _ h (Scan.instruction_covers hphase)
  · exact skipSpaces_orderly h
  · exact ho

/-- A document type is of the head, like the modes it leads to. -/
lemma stepProlog_orderly (h : s.Within text) (hmode : s.mode = .prolog) :
    Orderly text .head s.cursor.offset s.stepProlog := by
  have hphase : s.mode.phase = .head := by rw [hmode]; rfl
  rw [stepProlog]
  split_ifs
  · have hread : Orderly text .head s.cursor.offset (s.read .doctype Scan.doctype) := by
      apply read_orderly _ h
      rw [hphase]
      exact Scan.doctype_covers
    split
    · rename_i subset span s' heq
      obtain ⟨hmove, hin, ⟨hwell, -⟩, hspan⟩ := hread _ _ heq
      rintro _ _ ⟨⟩
      refine ⟨hmove, hin, ⟨hwell, ?_⟩, hspan⟩
      cases subset <;> rfl
    · exact hread
  · rw [← hphase]
    refine misc_orderly h (by simp [hphase]) (orderly_none h (Nat.le_refl _) ?_)
    rw [hphase]
    rfl

lemma stepSubset_orderly (h : s.Within text) (hmode : s.mode = .subset) :
    Orderly text .head s.cursor.offset s.stepSubset := by
  have hphase : s.mode.phase = .head := by rw [hmode]; rfl
  rw [stepSubset, ← hphase]
  split_ifs
  · exact read_orderly _ h Scan.entity_covers
  · rw [hphase]
    exact read_orderly (s := s.into .beforeRoot) _ h Scan.subsetEnd_covers
  · exact skipDeclaration_orderly h
  · exact misc_orderly h (by simp [hphase]) (orderly_error _)

lemma stepBeforeRoot_orderly (h : s.Within text) (hmode : s.mode = .beforeRoot) :
    Orderly text .head s.cursor.offset s.stepBeforeRoot := by
  have hphase : s.mode.phase = .head := by rw [hmode]; rfl
  rw [stepBeforeRoot, ← hphase]
  refine misc_orderly h (by simp [hphase]) ?_
  split_ifs
  · exact orderly_error _
  · rw [hphase]
    exact read_orderly (s := s.into .insideTag) _ h (Scan.tagOpen_covers (by decide))
  · exact orderly_error _

lemma phase_afterTag (depth : Nat) : (afterTag depth).phase = .body := by
  rw [afterTag]
  split_ifs <;> rfl

lemma stepContent_orderly (h : s.Within text) (hmode : s.mode = .content) :
    Orderly text .body s.cursor.offset s.stepContent := by
  have hsame {scan : Scan (Option Token)} (what : Construct)
      (hscan : scan.Covers text (Scan.Leads .body .body)) :
      Orderly text .body s.cursor.offset (s.read what scan) := by
    apply read_orderly what h
    rw [hmode]
    exact hscan
  rw [stepContent]
  dsimp only
  split_ifs
  · exact hsame _ (Scan.comment_covers (by decide))
  · exact hsame _ Scan.cdata_covers
  · exact orderly_error _
  · exact hsame _ (Scan.instruction_covers (by decide))
  · refine read_orderly
      (s := { s with depth := s.depth - 1, mode := afterTag (s.depth - 1) }) _ h ?_
    rw [phase_afterTag]
    exact Scan.endTag_covers
  · exact orderly_error _
  · exact read_orderly (s := s.into .insideTag) _ h (Scan.tagOpen_covers (by decide))
  · exact hsame _ Scan.text_covers

/-- What ends a start tag leads to the body, an attribute leaves the tag open. -/
lemma stepInsideTag_orderly (h : s.Within text) (hmode : s.mode = .insideTag) :
    Orderly text .tag s.cursor.offset s.stepInsideTag := by
  rw [stepInsideTag, read]
  cases hr : Scan.tagPart s.cursor with
  | error cause => exact orderly_error _
  | ok r =>
      obtain ⟨t, c⟩ := r
      obtain ⟨hmove, hread, hin, hP, hspan⟩ := Scan.tagPart_covers _ t c h.1 h.2 hr
      dsimp only
      split
      · rename_i span s' heq
        cases heq
        rintro _ _ ⟨⟩
        exact ⟨hmove, ⟨hread, hin⟩, ⟨hP, rfl⟩, hspan⟩
      · rename_i span s' heq
        cases heq
        rintro _ _ ⟨⟩
        refine ⟨hmove, ⟨hread, hin⟩, ⟨trivial, ?_⟩, hspan⟩
        exact congrArg some (phase_afterTag s.depth).symm
      · rename_i hclose hself
        rintro x s' ⟨⟩
        refine ⟨hmove, ⟨hread, hin⟩, ?_, hspan⟩
        rw [hmode]
        cases t with
        | none => exact hP.elim
        | some x =>
            cases x with
            | tagClose span => exact absurd rfl (hclose span _)
            | tagSelfClose span => exact absurd rfl (hself span _)
            | doctype | subsetEnd | comment | instruction | cdata | text | tagOpen | endTag =>
                exact hP.elim
            | _ => exact ⟨trivial, rfl⟩

/-- One step of the scanner is orderly, in every mode. -/
lemma step_orderly (h : s.Within text) : Orderly text s.mode.phase s.cursor.offset s.step := by
  rw [step]
  split
  · rename_i hmode
    rw [hmode]
    split_ifs
    · exact read_orderly (s := s.into .prolog) _ h Scan.declaration_covers
    · exact orderly_none (s := s.into .prolog) h (Nat.le_refl _) rfl
  · rename_i hmode
    rw [hmode]
    exact stepProlog_orderly h hmode
  · rename_i hmode
    rw [hmode]
    exact stepSubset_orderly h hmode
  · rename_i hmode
    rw [hmode]
    exact stepBeforeRoot_orderly h hmode
  · rename_i hmode
    rw [hmode]
    exact stepContent_orderly h hmode
  · rename_i hmode
    rw [hmode]
    exact stepInsideTag_orderly h hmode
  · rename_i hmode
    exact misc_orderly h (by rw [hmode]; decide) (orderly_error _)

/-- The tokens of any number of steps follow one another. -/
lemma follow_scan (steps : Nat) {s : ScanState} (h : s.Within text) :
    Follow text.length s.mode.phase s.cursor.offset (s.scan steps).1 := by
  induction steps generalizing s with
  | zero => exact .nil h.2
  | succ steps ih =>
      rw [scan]
      split_ifs
      · exact .nil h.2
      · cases hstep : s.step with
        | error fault => exact .nil h.2
        | ok r =>
            obtain ⟨token, s'⟩ := r
            obtain ⟨hmove, hin, hleads, hspan⟩ := step_orderly h token s' hstep
            have hmore := ih hin
            cases token with
            | none =>
                have hphase : s'.mode.phase = s.mode.phase := hleads
                rw [← hphase]
                exact hmore.mono hmove
            | some x =>
                obtain ⟨hbehind, hordered, hstop⟩ := hspan x rfl
                rw [← hstop] at hmore
                exact .cons hleads.2 hbehind hordered hleads.1 hmore

end ScanState

/-- A byte order mark is part of the text. -/
lemma startCursor_offset_le (text : List Char) : (startCursor text).offset ≤ text.length := by
  unfold startCursor
  split
  · exact Nat.le_add_left 1 _
  · exact Nat.zero_le _

/-- **The tokens of every text follow one another**, from the head of the document on. -/
theorem follow_scanAll (text : List Char) : Follow text.length .head 0 (scanAll text).1 := by
  have hstart : (ScanState.mk .declaration 0 (startCursor text)).Within text :=
    ⟨startCursor_readsFrom text, startCursor_offset_le text⟩
  have hfollow := ScanState.follow_scan (text.length + 3) hstart
  exact hfollow.mono (Nat.zero_le _)

end XmlAdvisor
