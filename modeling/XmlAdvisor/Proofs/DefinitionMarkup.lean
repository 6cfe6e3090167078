import XmlAdvisor.Proofs.DeclarationExtents
import XmlAdvisor.Proofs.DefinitionAssembly

/-!
# The markup of a definition

A definition that can be read is markup with white space between, and nothing else.  Here this is
said without a scanner: where each kind of markup ends is told by its own text, so definitions can
be cut between two markups and put together again.

* `DtdEnclosure` — markup between two fixed texts; `DtdDeclared` — declarations that are read.
* `IsMarkup` — a text is one markup and is read as a piece.
* `readPiece_eq_ok_iff` — reading a piece takes one markup and leaves what comes behind.
* `Tiled` — a text is markup with white space between; `Tiled.append` — two such texts make one.
* **`dtdPieces_eq_ok_iff`** — the pieces of a definition are those of its markup.
* `Dtd.read_eq_ok_iff` — what can be read, and as which definition.
-/

namespace XmlAdvisor

/-! ## Kinds of markup -/

/-- Markup between two fixed texts. -/
inductive DtdEnclosure
  | comment
  | instruction
  | conditional
  | entityReference

namespace DtdEnclosure

def opening : DtdEnclosure → String
  | .comment => "<!--"
  | .instruction => "<?"
  | .conditional => "<!["
  | .entityReference => "%"

def ending : DtdEnclosure → String
  | .comment => "-->"
  | .instruction => "?>"
  | .conditional => "]]>"
  | .entityReference => ";"

/-- What the markup is called if it has no end. -/
def markup : DtdEnclosure → DtdMarkup
  | .comment => .comment
  | .instruction => .instruction
  | .conditional => .conditional
  | .entityReference => .entityReference

/-- The piece that the markup is read as, by the text inside. -/
def piece : DtdEnclosure → List Char → DtdPiece
  | .comment, body => .comment (commentText body)
  | .instruction, _ | .entityReference, _ => .passing
  | .conditional, _ => .breaking

end DtdEnclosure

/-- Declarations that are read. -/
inductive DtdDeclared
  | element
  | attributes

namespace DtdDeclared

def keyword : DtdDeclared → String
  | .element => "<!ELEMENT"
  | .attributes => "<!ATTLIST"

/-- How the declaration is read behind its keyword. -/
def scan : DtdDeclared → DtdScan DtdPiece
  | .element => DtdScan.elementDeclaration
  | .attributes => DtdScan.attributesDeclaration

/-- What is left of a declaration that cannot be read. -/
def unread : DtdDeclared → DtdPiece
  | .element => .passing
  | .attributes => .breaking

/-- The piece that the declaration is read as, by the text behind its keyword. -/
def piece (d : DtdDeclared) (inner : List Char) : DtdPiece :=
  match d.scan.run inner with
  | some (p, _) => p
  | none => d.unread

lemma scan_closes (d : DtdDeclared) (n : Nat) : DtdScan.Closes n d.scan d.scan := by
  cases d with
  | element => exact DtdScan.elementDeclaration_closes
  | attributes => exact DtdScan.attributesDeclaration_closes

end DtdDeclared

/-- Whether a text behind `<!` begins no comment, no section and no declaration that is read. -/
def IsOther (inner : List Char) : Prop :=
  ∀ s ∈ ["--", "[", "ELEMENT", "ATTLIST"], ¬s.toList <+: inner

/-- Whether a text is one markup, which is read as a piece. -/
inductive IsMarkup : List Char → DtdPiece → Prop
  /-- The text inside goes on until the ending text stands first. -/
  | enclosed (e : DtdEnclosure) {body : List Char} (h : StopsAt e.ending.toList body) :
      IsMarkup (e.opening.toList ++ (body ++ e.ending.toList)) (e.piece body)
  /-- Whether it can be read or not, the declaration goes on until a `>` that is not in a value. -/
  | declared (d : DtdDeclared) {inner : List Char} (h : EndsDeclaration inner) :
      IsMarkup (d.keyword.toList ++ inner) (d.piece inner)
  | other {inner : List Char} (hother : IsOther inner) (h : EndsDeclaration inner) :
      IsMarkup ("<!".toList ++ inner) .breaking

lemma IsMarkup.exists_cons {w : List Char} {p : DtdPiece} (h : IsMarkup w p) :
    ∃ c cs, w = c :: cs ∧ isXmlSpace c = false := by
  cases h with
  | enclosed e => cases e <;> exact ⟨_, _, rfl, rfl⟩
  | declared d => cases d <;> exact ⟨_, _, rfl, rfl⟩
  | other => exact ⟨_, _, rfl, rfl⟩

/-! ## Reading a piece -/

/-- What is read where a markup should end: its piece, if what comes behind it is known. -/
def readAs (what : DtdMarkup) (p : DtdPiece) :
    Option (List Char) → Except (Option DtdMarkup) (DtdPiece × List Char)
  | some rest => .ok (p, rest)
  | none => .error (some what)

lemma readAs_eq_ok_iff {what : DtdMarkup} {p q : DtdPiece} {end? : Option (List Char)}
    {rest : List Char} : readAs what p end? = .ok (q, rest) ↔ q = p ∧ end? = some rest := by
  cases end? <;> simp [readAs, eq_comm]

lemma readAs_map_snd (what : DtdMarkup) (p : DtdPiece) (cut : Option (List Char × List Char)) :
    readAs what p (cut.map (·.2)) = match cut with
      | some (_, rest) => .ok (p, rest)
      | none => .error (some what) := by
  cases cut <;> rfl

lemma readPiece_enclosed (e : DtdEnclosure) (cs : List Char) : readPiece (e.opening.toList ++ cs) =
    match splitAtFirst e.ending.toList cs with
    | some (body, rest) => .ok (e.piece body, rest)
    | none => .error (some e.markup) := by
  cases e with
  | comment => rfl
  | instruction => exact readAs_map_snd .instruction .passing (splitAtFirst "?>".toList cs)
  | conditional => exact readAs_map_snd .conditional .breaking (splitAtFirst "]]>".toList cs)
  | entityReference => exact readAs_map_snd .entityReference .passing (splitAtFirst ";".toList cs)

/-- A declaration that cannot be read is skipped from its beginning; its keyword holds no mark. -/
lemma readPiece_declared (d : DtdDeclared) (cs : List Char) : readPiece (d.keyword.toList ++ cs) =
    match d.scan.run cs with
    | some read => .ok read
    | none => readAs .declaration d.unread (skipDeclaration? none cs) := by
  cases d with
  | element =>
      have hplain : IsPlainText "ELEMENT" := by decide
      rw [← skipDeclaration?_plain hplain cs]
      rfl
  | attributes =>
      have hplain : IsPlainText "ATTLIST" := by decide
      rw [← skipDeclaration?_plain hplain cs]
      rfl

lemma after_eq_none (s : String) {cs : List Char} (h : ¬s.toList <+: cs) :
    (if s.toList.isPrefixOf cs = true then some (cs.drop s.length) else none) = none := by
  rw [if_neg (mt List.isPrefixOf_iff_prefix.mp h)]

lemma readPiece_other {cs : List Char} (h : IsOther cs) :
    readPiece ("<!".toList ++ cs) = readAs .declaration .breaking (skipDeclaration? none cs) := by
  have hno : ∀ s ∈ ["<!--", "<?", "<![", "<!ELEMENT", "<!ATTLIST"],
      ¬s.toList <+: "<!".toList ++ cs := by
    simpa [IsOther] using h
  rw [readPiece]
  dsimp only
  rw [after_eq_none "<!--" (hno _ (by decide)), after_eq_none "<?" (hno _ (by decide)),
    after_eq_none "<![" (hno _ (by decide)), after_eq_none "<!ELEMENT" (hno _ (by decide)),
    after_eq_none "<!ATTLIST" (hno _ (by decide))]
  rfl

/-- What begins no markup is not read. -/
lemma begins_or_error (cs : List Char) :
    (∃ (e : DtdEnclosure) (rest : List Char), cs = e.opening.toList ++ rest) ∨
      (∃ (d : DtdDeclared) (rest : List Char), cs = d.keyword.toList ++ rest) ∨
      (∃ rest, IsOther rest ∧ cs = "<!".toList ++ rest) ∨ readPiece cs = .error none := by
  by_cases henclosed : ∃ (e : DtdEnclosure) (rest : List Char), cs = e.opening.toList ++ rest
  · exact .inl henclosed
  by_cases hdeclared : ∃ (d : DtdDeclared) (rest : List Char), cs = d.keyword.toList ++ rest
  · exact .inr (.inl hdeclared)
  have hopening (e : DtdEnclosure) : ¬e.opening.toList <+: cs :=
    fun ⟨rest, hrest⟩ => henclosed ⟨e, rest, hrest.symm⟩
  have hkeyword (d : DtdDeclared) : ¬d.keyword.toList <+: cs :=
    fun ⟨rest, hrest⟩ => hdeclared ⟨d, rest, hrest.symm⟩
  by_cases hother : "<!".toList <+: cs
  · obtain ⟨rest, rfl⟩ := hother
    refine .inr (.inr (.inl ⟨rest, ?_, rfl⟩))
    have hcomment := hopening .comment
    have hsection := hopening .conditional
    have helement := hkeyword .element
    have hattributes := hkeyword .attributes
    simp_all [IsOther, DtdEnclosure.opening, DtdDeclared.keyword]
  · refine .inr (.inr (.inr ?_))
    rw [readPiece]
    dsimp only
    rw [after_eq_none "<!--" (hopening .comment), after_eq_none "<?" (hopening .instruction),
      after_eq_none "<![" (hopening .conditional), after_eq_none "<!ELEMENT" (hkeyword .element),
      after_eq_none "<!ATTLIST" (hkeyword .attributes), after_eq_none "<!" hother,
      after_eq_none "%" (hopening .entityReference)]

/-- A declaration is read as its piece whatever comes behind it. -/
lemma readPiece_declared_append (d : DtdDeclared) {inner : List Char} (h : EndsDeclaration inner)
    (rest : List Char) : readPiece (d.keyword.toList ++ (inner ++ rest)) =
    .ok (d.piece inner, rest) := by
  rw [readPiece_declared, DtdScan.Closes.run_append d.scan_closes h, DtdDeclared.piece]
  cases d.scan.run inner with
  | none =>
      rw [skipDeclaration?_eq_some_iff.mpr ⟨inner, h, rfl⟩]
      rfl
  | some read => rfl

lemma IsOther.append {inner : List Char} (hother : IsOther inner) (h : EndsDeclaration inner)
    (rest : List Char) : IsOther (inner ++ rest) := by
  intro s hs
  have hmem : '>' ∈ inner := mem_of_skipDeclaration? (endsDeclaration_iff.mp h)
  have hfree : ∀ s ∈ ["--", "[", "ELEMENT", "ATTLIST"], '>' ∉ s.toList := by decide
  rw [← List.isPrefixOf_iff_prefix, isPrefixOf_append_of_mem hmem (hfree s hs),
    List.isPrefixOf_iff_prefix]
  exact hother s hs

/-- Reading a piece takes one markup and leaves what comes behind. -/
lemma readPiece_eq_ok_iff {cs rest : List Char} {p : DtdPiece} :
    readPiece cs = .ok (p, rest) ↔ ∃ w, IsMarkup w p ∧ cs = w ++ rest := by
  constructor
  · intro h
    rcases begins_or_error cs with ⟨e, cs, rfl⟩ | ⟨d, cs, rfl⟩ | ⟨cs, hother, rfl⟩ | herror
    · rw [readPiece_enclosed] at h
      split at h
      case h_1 body behind hcut =>
        cases h
        obtain ⟨rfl, hstops⟩ := splitAtFirst_eq_some_iff.mp hcut
        exact ⟨_, .enclosed e hstops, by simp⟩
      case h_2 => cases h
    · have hskip : skipDeclaration? none cs = some rest := by
        rw [readPiece_declared] at h
        split at h
        case h_1 read hrun =>
          cases h
          exact DtdScan.Closes.skipDeclaration?_eq d.scan_closes hrun
        case h_2 => exact (readAs_eq_ok_iff.mp h).2
      obtain ⟨inner, hends, rfl⟩ := skipDeclaration?_eq_some_iff.mp hskip
      rw [readPiece_declared_append d hends] at h
      cases h
      exact ⟨_, .declared d hends, by simp⟩
    · rw [readPiece_other hother, readAs_eq_ok_iff] at h
      obtain ⟨rfl, hskip⟩ := h
      obtain ⟨inner, hends, rfl⟩ := skipDeclaration?_eq_some_iff.mp hskip
      have hinner : IsOther inner := fun s hs hbegins =>
        hother s hs (hbegins.trans (List.prefix_append inner rest))
      exact ⟨_, .other hinner hends, by simp⟩
    · rw [herror] at h
      cases h
  · rintro ⟨w, hw, rfl⟩
    cases hw with
    | enclosed e hstops =>
        rw [List.append_assoc, List.append_assoc, readPiece_enclosed,
          splitAtFirst_eq_some_iff.mpr ⟨rfl, hstops⟩]
    | declared d hends => rw [List.append_assoc, readPiece_declared_append d hends]
    | other hother hends =>
        rw [List.append_assoc, readPiece_other (hother.append hends rest),
          skipDeclaration?_eq_some_iff.mpr ⟨_, hends, rfl⟩]
        rfl

/-! ## Reading all pieces -/

/-- Whether a text is markup with white space between, read as these pieces. -/
inductive Tiled : List Char → List DtdPiece → Prop
  | blank {b : List Char} (h : ∀ c ∈ b, isXmlSpace c = true) : Tiled b []
  | markup {b w rest : List Char} {p : DtdPiece} {ps : List DtdPiece}
      (hb : ∀ c ∈ b, isXmlSpace c = true) (hw : IsMarkup w p) (hrest : Tiled rest ps) :
      Tiled (b ++ (w ++ rest)) (p :: ps)

/-- White space in front changes no piece. -/
lemma Tiled.behindBlank {b text : List Char} {ps : List DtdPiece} (h : Tiled text ps)
    (hb : ∀ c ∈ b, isXmlSpace c = true) : Tiled (b ++ text) ps := by
  have hboth {c : List Char} (hc : ∀ d ∈ c, isXmlSpace d = true) :
      ∀ d ∈ b ++ c, isXmlSpace d = true :=
    fun d hd => (List.mem_append.mp hd).elim (hb d) (hc d)
  cases h with
  | blank hc => exact .blank (hboth hc)
  | markup hc hw hrest =>
      rw [← List.append_assoc]
      exact .markup (hboth hc) hw hrest

/-- Two definitions behind one another make one, which has the pieces of both. -/
lemma Tiled.append {a b : List Char} {ps qs : List DtdPiece} (ha : Tiled a ps) (hb : Tiled b qs) :
    Tiled (a ++ b) (ps ++ qs) := by
  induction ha with
  | blank h => exact hb.behindBlank h
  | markup hblank hw _ ih =>
      rw [List.append_assoc, List.append_assoc, List.cons_append]
      exact .markup hblank hw ih

lemma Tiled.of_markup {w : List Char} {p : DtdPiece} (h : IsMarkup w p) : Tiled w [p] := by
  have htiled := Tiled.markup (b := []) nofun h (.blank (b := []) nofun)
  rwa [List.nil_append, List.append_nil] at htiled

/-- White space alone is no markup. -/
lemma tiled_blank_iff {b : List Char} {ps : List DtdPiece} (hb : ∀ c ∈ b, isXmlSpace c = true) :
    Tiled b ps ↔ ps = [] := by
  constructor
  · intro h
    cases h with
    | blank => rfl
    | markup _ hw =>
        obtain ⟨c, cs, rfl, hc⟩ := hw.exists_cons
        rw [hb c (by simp)] at hc
        cases hc
  · rintro rfl
    exact .blank hb

/-- What stands behind white space begins with one markup, and more may come behind it. -/
lemma tiled_append_cons_iff {b cs : List Char} {c : Char} {ps : List DtdPiece}
    (hb : ∀ d ∈ b, isXmlSpace d = true) (hc : isXmlSpace c = false) :
    Tiled (b ++ c :: cs) ps ↔ ∃ p rest more,
      readPiece (c :: cs) = .ok (p, rest) ∧ Tiled rest more ∧ ps = p :: more := by
  have hahead {d : Char} {ds : List Char} (hd : isXmlSpace d = false) :
      Ahead (isXmlSpace · = false) (d :: ds) := by
    rintro _ ⟨⟩
    exact hd
  constructor
  · generalize htext : b ++ c :: cs = text
    intro h
    cases h with
    | blank h =>
        rw [h c (by simp [← htext])] at hc
        cases hc
    | @markup b' w rest p more hb' hw hrest =>
        obtain ⟨d, ds, rfl, hd⟩ := hw.exists_cons
        have hblank := congrArg (List.takeWhile isXmlSpace) htext
        rw [takeWhile_blanks hb (hahead hc), List.cons_append,
          takeWhile_blanks hb' (hahead hd)] at hblank
        rw [hblank] at htext
        exact ⟨p, rest, more, readPiece_eq_ok_iff.mpr ⟨_, hw, List.append_cancel_left htext⟩,
          hrest, rfl⟩
  · rintro ⟨p, rest, more, hread, hrest, rfl⟩
    obtain ⟨w, hw, hcs⟩ := readPiece_eq_ok_iff.mp hread
    rw [hcs]
    exact .markup hb hw hrest

lemma IsMarkup.length_pos {w : List Char} {p : DtdPiece} (h : IsMarkup w p) : 0 < w.length := by
  obtain ⟨c, cs, rfl, -⟩ := h.exists_cons
  exact Nat.succ_pos cs.length

lemma exists_blank_append (text : List Char) : ∃ b rest, (∀ c ∈ b, isXmlSpace c = true) ∧
    Ahead (isXmlSpace · = false) rest ∧ text = b ++ rest := by
  refine ⟨text.takeWhile isXmlSpace, text.dropWhile isXmlSpace, fun c => List.mem_takeWhile_imp, ?_,
    List.takeWhile_append_dropWhile.symm⟩
  intro c hc
  have hhead := List.head?_dropWhile_not isXmlSpace text
  rw [Option.mem_def.mp hc] at hhead
  exact hhead

lemma bind_pure_eq_ok_iff {ε α β : Type} {x : Except ε α} {f : α → β} {b : β} :
    (do return f (← x)) = Except.ok b ↔ ∃ a, x = .ok a ∧ b = f a := by
  cases x with
  | error e => exact ⟨nofun, nofun⟩
  | ok a =>
      show Except.ok (f a) = Except.ok b ↔ _
      simp [eq_comm]

/-- No place of an error matters for what is read, and each markup has a character at least. -/
lemma readPieces_eq_ok_iff {count : Nat} (offset : Nat) {text : List Char} {ps : List DtdPiece}
    (h : text.length ≤ count) : readPieces count offset text = .ok ps ↔ Tiled text ps := by
  induction count generalizing offset text ps with
  | zero =>
      rw [List.length_eq_zero_iff.mp (Nat.le_zero.mp h),
        tiled_blank_iff fun _ hc => absurd hc List.not_mem_nil]
      simp [readPieces, eq_comm]
  | succ count ih =>
      obtain ⟨b, rest, hb, hrest, rfl⟩ := exists_blank_append text
      rw [readPieces, takeWhile_blanks hb hrest]
      dsimp only
      rw [List.drop_left]
      cases rest with
      | nil =>
          rw [List.append_nil, tiled_blank_iff hb]
          simp [eq_comm]
      | cons c cs =>
          rw [tiled_append_cons_iff hb (hrest c rfl)]
          dsimp only
          cases hread : readPiece (c :: cs) with
          | error cause => cases cause <;> simp
          | ok read =>
              obtain ⟨p, behind⟩ := read
              have hshort : behind.length ≤ count := by
                obtain ⟨w, hw, hcs⟩ := readPiece_eq_ok_iff.mp hread
                have hpos := hw.length_pos
                rw [hcs, List.length_append, List.length_append] at h
                omega
              simp only [Except.ok.injEq, Prod.mk.injEq, bind_pure_eq_ok_iff, ih _ hshort]
              constructor
              · rintro ⟨more, hmore, rfl⟩
                exact ⟨p, behind, more, ⟨rfl, rfl⟩, hmore, rfl⟩
              · rintro ⟨_, _, more, ⟨rfl, rfl⟩, hmore, rfl⟩
                exact ⟨more, hmore, rfl⟩

/-- **The pieces of a definition are those of its markup**, however it is cut. -/
lemma dtdPieces_eq_ok_iff {text : List Char} {ps : List DtdPiece} :
    dtdPieces text = .ok ps ↔ Tiled text ps :=
  readPieces_eq_ok_iff 0 (Nat.le_refl _)

/-- A definition can be read exactly if its text is markup with white space between. -/
lemma Dtd.read_eq_ok_iff {text : List Char} {d : Dtd} :
    Dtd.read text = .ok d ↔ ∃ ps, Tiled text ps ∧ d = Dtd.ofPieces ps := by
  simp only [← dtdPieces_eq_ok_iff, Dtd.read]
  cases dtdPieces text <;> simp [Except.map, eq_comm]

end XmlAdvisor
