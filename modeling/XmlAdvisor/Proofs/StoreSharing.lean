import XmlAdvisor.Proofs.OfferedGrammars
import XmlAdvisor.Proofs.StoreFreshness

/-!
# Documents that share a store

A store that serves many documents keeps grammars by location and document element, but not by kind.
As long as the texts that can be loaded stay as they are, what comes of a reference is what its text
compiles to, unless another reference under its key was asked for as another kind before: then the
grammar of the other kind is kept, and handed out.

* `GrammarReference.compileFrom` — what a reference stands for.
* `GrammarReference.ToldApart` — a text that is carried is not taken for one that can be loaded.
* `GrammarStore.StemsFrom` — the invariant: each kept grammar is what some reference stands for.
* `Bindings.afterChecking` — the store after other documents were checked.
* **`requests_share_store`** — what is asked for before cannot be noticed, but for another kind
  under the same key; `store_mixes_kinds` — which can.
-/

namespace XmlAdvisor

/-! ## What references stand for -/

/-- A text is compiled to a grammar of the kind that is asked for. -/
lemma Grammar.kind_of_compile {kind : GrammarKind} {uri : Url} {root : Option String}
    {text : List Char} {g : Grammar} (h : compile kind uri root text = .ok g) : g.kind = kind := by
  cases kind with
  | relaxNg =>
      rw [compile] at h
      cases hschema : Schema.compile text with
      | error e =>
          rw [hschema] at h
          cases h
      | ok schema =>
          rw [hschema] at h
          cases h
          rfl
  | dtd =>
      rw [compile] at h
      cases hdtd : Dtd.read text with
      | error e =>
          rw [hdtd] at h
          cases h
      | ok dtd =>
          rw [hdtd] at h
          cases h
          rfl

namespace Supply

/-- Whether a fingerprint marks a text at a location: it is told of it, or it is the text's own and
told of no other text. -/
def Marks (supply : Supply) (uri : Url) (fingerprint : Fingerprint) (text : String) : Prop :=
  (supply.current? uri = some fingerprint ∧ supply.fetch uri = .ok text) ∨
    fingerprint = fingerprintOf text ∧
      (supply.current? uri = some fingerprint → supply.fetch uri = .ok text)

variable {supply : Supply} {uri : Url} {fingerprint : Fingerprint} {text text' : String}

/-- What is told of a location marks the text there. -/
lemma Marks.fetch (h : supply.Marks uri fingerprint text)
    (htold : supply.current? uri = some fingerprint) : supply.fetch uri = .ok text := by
  rcases h with ⟨-, hfetch⟩ | ⟨-, hfetch⟩
  · exact hfetch
  · exact hfetch htold

/-- A fingerprint marks one text. -/
lemma Marks.unique (h : supply.Marks uri fingerprint text)
    (h' : supply.Marks uri fingerprint text') : text = text' := by
  rcases h with ⟨htold, hfetch⟩ | ⟨hown, hfetch⟩
  · exact Except.ok.inj (hfetch.symm.trans (h'.fetch htold))
  · rcases h' with ⟨htold, hfetch'⟩ | ⟨hown', -⟩
    · exact Except.ok.inj ((hfetch htold).symm.trans hfetch')
    · exact hown.symm.trans hown'

/-- A text that is loaded is marked by the fingerprint that it is looked up under. -/
lemma marks_loaded (h : supply.fetch uri = .ok text) :
    supply.Marks uri ((supply.current? uri).getD (fingerprintOf text)) text := by
  cases htold : supply.current? uri with
  | none => exact .inr ⟨rfl, fun _ => h⟩
  | some told => exact .inl ⟨htold, h⟩

end Supply

namespace GrammarReference

/-- The text of a reference: the one it carries, or the one at its location. -/
def currentText (supply : Supply) (r : GrammarReference) : Except GrammarError String :=
  match r.source with
  | .inline _ text => .ok text
  | .external uri => supply.fetch uri

/-- The grammar that a reference stands for. -/
def compileFrom (supply : Supply) (r : GrammarReference) : Except GrammarError Grammar :=
  (r.currentText supply).bind r.compile

/-- The text that a reference carries. -/
def carried? (r : GrammarReference) : Option String :=
  match r.source with
  | .inline _ text => some text
  | .external _ => none

/-- Whether the fingerprint of the text that a reference carries, if any, is told of no other text
at its location. -/
def ToldApart (supply : Supply) (r : GrammarReference) : Prop :=
  ∀ text ∈ r.carried?, supply.current? r.source.uri = some (fingerprintOf text) →
    supply.fetch r.source.uri = .ok text

variable {supply : Supply} {r r' : GrammarReference} {text : String} {g : Grammar}

/-- What a reference carries has its own fingerprint. -/
lemma ToldApart.marks {uri : Url} (h : r.ToldApart supply) (hsource : r.source = .inline uri text) :
    supply.Marks r.source.uri (fingerprintOf text) text := by
  refine .inr ⟨rfl, h text ?_⟩
  rw [carried?, hsource]
  rfl

lemma compileFrom_of_text (h : r.currentText supply = .ok text) :
    r.compileFrom supply = r.compile text := by
  rw [compileFrom, h]
  rfl

/-- A grammar that a reference stands for is of its kind. -/
lemma kind_of_compileFrom (h : r.compileFrom supply = .ok g) : g.kind = r.kind := by
  rw [compileFrom] at h
  cases htext : r.currentText supply with
  | error e =>
      rw [htext] at h
      cases h
  | ok text =>
      rw [htext] at h
      exact Grammar.kind_of_compile h

end GrammarReference

/-! ## The invariant -/

namespace GrammarStore

variable {supply : Supply} {asked : List GrammarReference} {s : GrammarStore} {r : GrammarReference}

/-- What loading does: it hands out what is kept under the fingerprint that is told, it fails like
the loading of the text, or it looks the text up under a fingerprint that marks it. -/
lemma load_cases (s : GrammarStore) (hr : r.ToldApart supply) :
    (∃ told g, r.currentText supply = supply.fetch r.source.uri ∧
      supply.current? r.source.uri = some told ∧ s.find? r.key told = some g ∧
      s.load supply r = ⟨.ok g, s, false⟩) ∨
    (∃ e, r.currentText supply = .error e ∧ s.load supply r = ⟨.error e, s, true⟩) ∨
    ∃ (s₁ : GrammarStore) (fingerprint : Fingerprint) (text : String) (asked : Bool),
      s₁.entries = s.entries ∧ r.currentText supply = .ok text ∧
      supply.Marks r.source.uri fingerprint text ∧
      s.load supply r =
        ⟨(s₁.ofText r fingerprint text).1, (s₁.ofText r fingerprint text).2, asked⟩ := by
  cases hsource : r.source with
  | inline uri text =>
      have hmark := hr.marks hsource
      rw [hsource] at hmark
      refine .inr (.inr ⟨s, fingerprintOf text, text, false, rfl, ?_, hmark, load_inline hsource⟩)
      rw [GrammarReference.currentText, hsource]
  | external uri =>
      have hcurrent : r.currentText supply = supply.fetch uri := by
        rw [GrammarReference.currentText, hsource]
      rw [hcurrent]
      cases hfound : (supply.current? uri).bind (s.find? r.key) with
      | some g =>
          obtain ⟨told, htold, hfind⟩ := Option.bind_eq_some_iff.mp hfound
          exact .inl ⟨told, g, rfl, htold, hfind, load_found hsource hfound⟩
      | none =>
          rw [load_missing hsource hfound]
          cases hfetch : supply.fetch uri with
          | error e => exact .inr (.inl ⟨e, rfl, ofLoaded_error hfetch⟩)
          | ok text =>
              exact .inr (.inr ⟨{ s with loads := s.loads + 1 }, _, text, true, rfl, rfl,
                Supply.marks_loaded hfetch, ofLoaded_ok hfetch⟩)

/-- Whether each kept grammar is what one of the references stands for, under the key of that
reference and a fingerprint of its text. -/
def StemsFrom (supply : Supply) (asked : List GrammarReference) (s : GrammarStore) : Prop :=
  ∀ e ∈ s.entries, ∃ r ∈ asked, r.key = e.key ∧ ∃ text, r.currentText supply = .ok text ∧
    supply.Marks e.key.uri e.fingerprint text ∧ r.compile text = .ok e.grammar

/-- What may come of a reference after others: what it stands for, or what one of the others does
that is of another kind under the same key. -/
def Served (supply : Supply) (asked : List GrammarReference) (r : GrammarReference)
    (result : Except GrammarError Grammar) : Prop :=
  result = r.compileFrom supply ∨
    ∃ r' ∈ asked, r'.key = r.key ∧ r'.kind ≠ r.kind ∧ result = r'.compileFrom supply

lemma stemsFrom_empty (supply : Supply) (asked : List GrammarReference) :
    StemsFrom supply asked {} := by
  intro e he
  cases he

/-- A kept grammar that is found under a fingerprint stands for a text that the fingerprint
marks. -/
lemma StemsFrom.of_find? (h : s.StemsFrom supply asked) {key : StoreKey}
    {fingerprint : Fingerprint} {g : Grammar} (hfind : s.find? key fingerprint = some g) :
    ∃ r ∈ asked, r.key = key ∧ ∃ text, r.currentText supply = .ok text ∧
      supply.Marks key.uri fingerprint text ∧ r.compile text = .ok g := by
  obtain ⟨e, he, rfl⟩ := Option.map_eq_some_iff.mp hfind
  have hmatch := List.find?_some he
  simp only [Bool.and_eq_true, decide_eq_true_eq] at hmatch
  obtain ⟨rfl, rfl⟩ := hmatch
  exact h e (List.mem_of_find?_eq_some he)

/-- A kept grammar of the right text may come of a reference. -/
lemma served_of_text {r' : GrammarReference} (hr' : r' ∈ asked) (hkey : r'.key = r.key)
    {text : String} (htext : r.currentText supply = .ok text)
    (htext' : r'.currentText supply = .ok text) {g : Grammar} (hg : r'.compile text = .ok g) :
    Served supply asked r (.ok g) := by
  by_cases hkind : r'.kind = r.kind
  · rw [Served, GrammarReference.compileFrom_of_text htext, ← compile_congr hkey hkind, hg]
    exact .inl rfl
  · refine .inr ⟨r', hr', hkey, hkind, ?_⟩
    rw [GrammarReference.compileFrom_of_text htext', hg]

lemma StemsFrom.served_ofText (h : s.StemsFrom supply asked) {fingerprint : Fingerprint}
    {text : String} (htext : r.currentText supply = .ok text)
    (hmark : supply.Marks r.source.uri fingerprint text) :
    Served supply asked r (s.ofText r fingerprint text).1 := by
  rw [ofText]
  cases hfind : s.find? r.key fingerprint with
  | some g =>
      obtain ⟨r', hr', hkey, text', htext', hmark', hg⟩ := h.of_find? hfind
      have hsame : text = text' := hmark.unique hmark'
      rw [← hsame] at htext' hg
      exact served_of_text hr' hkey htext htext' hg
  | none =>
      rw [Served, GrammarReference.compileFrom_of_text htext]
      cases r.compile text <;> exact .inl rfl

lemma StemsFrom.ofText (h : s.StemsFrom supply asked) (hr : r ∈ asked) {fingerprint : Fingerprint}
    {text : String} (htext : r.currentText supply = .ok text)
    (hmark : supply.Marks r.source.uri fingerprint text) :
    (s.ofText r fingerprint text).2.StemsFrom supply asked := by
  rw [GrammarStore.ofText]
  cases s.find? r.key fingerprint with
  | some g => exact h
  | none =>
      cases hcompile : r.compile text with
      | error e => exact h
      | ok g =>
          intro e he
          rcases List.mem_cons.mp he with rfl | he
          · exact ⟨r, hr, rfl, text, htext, hmark, hcompile⟩
          · exact h e (List.mem_filter.mp he).1

/-- What comes of a reference, with a store that stems from others. -/
lemma StemsFrom.served_load (h : s.StemsFrom supply asked) (hr : r.ToldApart supply) :
    Served supply asked r (s.load supply r).result := by
  rcases s.load_cases hr with ⟨told, g, hcurrent, htold, hfind, hload⟩ |
    ⟨e, hcurrent, hload⟩ | ⟨s₁, fingerprint, text, _, hentries, htext, hmark, hload⟩
  · obtain ⟨r', hr', hkey, text, htext', hmark, hg⟩ := h.of_find? hfind
    have hplace : r.key.uri = r.source.uri := rfl
    have htext : r.currentText supply = .ok text := by
      rw [hplace] at hmark
      rw [hcurrent]
      exact hmark.fetch htold
    rw [hload]
    exact served_of_text hr' hkey htext htext' hg
  · rw [hload]
    refine .inl ?_
    rw [GrammarReference.compileFrom, hcurrent]
    rfl
  · have hcounted : s₁.StemsFrom supply asked := by
      rw [StemsFrom, hentries]
      exact h
    rw [hload]
    exact hcounted.served_ofText htext hmark

/-- Asking for one of the references keeps the invariant. -/
lemma StemsFrom.load (h : s.StemsFrom supply asked) (hr : r ∈ asked) (hapart : r.ToldApart supply) :
    (s.load supply r).store.StemsFrom supply asked := by
  rcases s.load_cases hapart with ⟨told, g, -, -, -, hload⟩ | ⟨e, -, hload⟩ |
    ⟨s₁, fingerprint, text, _, hentries, htext, hmark, hload⟩
  · rw [hload]
    exact h
  · rw [hload]
    exact h
  · have hcounted : s₁.StemsFrom supply asked := by
      rw [StemsFrom, hentries]
      exact h
    rw [hload]
    exact hcounted.ofText hr htext hmark

lemma StemsFrom.loadAll {refs : List GrammarReference} (h : s.StemsFrom supply asked)
    (hrefs : refs ⊆ asked) (hapart : ∀ r ∈ refs, r.ToldApart supply) :
    (s.loadAll supply refs).2.StemsFrom supply asked := by
  induction refs generalizing s with
  | nil => exact h
  | cons r more ih =>
      rw [List.cons_subset] at hrefs
      rw [List.forall_mem_cons] at hapart
      exact ih (h.load hrefs.1 hapart.1) hrefs.2 hapart.2

/-- The store after requests for references, from an empty one. -/
def afterRequests (supply : Supply) (refs : List GrammarReference) : GrammarStore :=
  (loadAll supply refs {}).2

lemma stemsFrom_afterRequests {refs : List GrammarReference}
    (hapart : ∀ r ∈ refs, r.ToldApart supply) : (afterRequests supply refs).StemsFrom supply refs :=
  (stemsFrom_empty supply refs).loadAll (List.Subset.refl refs) hapart

/-- Without others under its key of another kind, a reference gives what it stands for. -/
lemma StemsFrom.load_result (h : s.StemsFrom supply asked) (hr : r.ToldApart supply)
    (hkinds : ∀ r' ∈ asked, r'.key = r.key → r'.kind = r.kind) :
    (s.load supply r).result = r.compileFrom supply := by
  rcases h.served_load hr with hown | ⟨r', hr', hkey, hkind, -⟩
  · exact hown
  · exact absurd (hkinds r' hr' hkey) hkind

/-- Without others under their keys of other kinds, references under different keys give what they
stand for. -/
lemma StemsFrom.loadAll_fst (h : s.StemsFrom supply asked) {refs : List GrammarReference}
    (hapart : GrammarReference.Apart refs) (htold : ∀ r ∈ refs, r.ToldApart supply)
    (hkinds : ∀ r ∈ refs, ∀ r' ∈ asked, r'.key = r.key → r'.kind = r.kind) :
    (s.loadAll supply refs).1 = refs.flatMap fun r => (r.compileFrom supply).toOption.toList := by
  rw [GrammarStore.loadAll_fst hapart]
  refine List.flatMap_congr fun r hr => ?_
  rw [h.load_result (htold r hr) (hkinds r hr)]

end GrammarStore

/-! ## Documents that are checked one after the other -/

namespace Bindings

variable {b : Bindings} {s : GrammarStore} {asked : List GrammarReference}

/-- The state after the diagnostics of documents were asked for, one after the other. -/
def afterChecking (b : Bindings) (settings : ValidationSettings) (others : List Document)
    (state : RequestState) : RequestState :=
  others.foldl (fun state d => ((b.diagnostics settings d).runFrom state).2) state

/-- Checking documents leaves a store that stems from their references. -/
lemma stemsFrom_afterChecking (hquiet : b.supply.interruptedAt = none)
    (settings : ValidationSettings) (others : List Document) (h : s.StemsFrom b.supply asked)
    (hrefs : ∀ d ∈ others, d.references b.associations ⊆ asked)
    (hapart : ∀ d ∈ others, ∀ r ∈ d.references b.associations, r.ToldApart b.supply) :
    ∃ s' : GrammarStore, b.afterChecking settings others ⟨s, .never⟩ = ⟨s', .never⟩ ∧
      s'.StemsFrom b.supply asked := by
  induction others generalizing s with
  | nil => exact ⟨s, rfl, h⟩
  | cons d others ih =>
      have hd := hrefs d (List.mem_cons_self ..)
      have hothers := fun d' hd' => hrefs d' (List.mem_cons_of_mem d hd')
      rw [List.forall_mem_cons] at hapart
      rw [afterChecking, List.foldl_cons, runFrom_diagnostics hquiet]
      dsimp only
      split_ifs
      · exact ih (h.loadAll hd hapart.1) hothers hapart.2
      · exact ih h hothers hapart.2

end Bindings

/-- **What was asked for before cannot be noticed**, as long as the texts that can be loaded stay as
they are, none that is carried is taken for one of them, and nothing of another kind was asked for
under the same key: each request gives the grammar that the reference stands for, of its kind, or
the same error, and a document that is checked after others has the diagnostics that it has when it
is checked first. -/
theorem requests_share_store {supply : Supply} (hquiet : supply.interruptedAt = none) :
    (∀ (earlier : List GrammarReference) (r : GrammarReference),
      (∀ r' ∈ r :: earlier, r'.ToldApart supply) →
      (∀ r' ∈ earlier, r'.key = r.key → r'.kind = r.kind) →
      ((GrammarStore.afterRequests supply earlier).load supply r).result = r.compileFrom supply ∧
        ∀ g, r.compileFrom supply = .ok g → g.kind = r.kind) ∧
    ∀ (associations : List Association) (settings : ValidationSettings) (others : List Document)
      (url : Url) (version : Int) (unit : ColumnUnit) (text : List Char),
      (∀ d ∈ Document.parse url version unit text :: others,
        ∀ r ∈ d.references associations, r.ToldApart supply) →
      (∀ r ∈ (Document.parse url version unit text).references associations,
        ∀ d ∈ others, ∀ r' ∈ d.references associations, r'.key = r.key → r'.kind = r.kind) →
      (((Bindings.mk supply associations).diagnostics settings
          (Document.parse url version unit text)).runFrom
            ((Bindings.mk supply associations).afterChecking settings others {})).1 =
        (((Bindings.mk supply associations).diagnostics settings
          (Document.parse url version unit text)).runFrom {}).1 := by
  refine ⟨fun earlier r hapart hkinds =>
    ⟨?_, fun g hg => GrammarReference.kind_of_compileFrom hg⟩, ?_⟩
  · rw [List.forall_mem_cons] at hapart
    exact (GrammarStore.stemsFrom_afterRequests hapart.2).load_result hapart.1 hkinds
  · intro associations settings others url version unit text hapart hkinds
    rw [List.forall_mem_cons] at hapart
    have hd : (Document.parse url version unit text).toTree.Nests := Tree.parse_nests text
    have hrefs := references_apart hd associations
    have hstart := GrammarStore.stemsFrom_empty supply (others.flatMap (·.references associations))
    obtain ⟨s, hs, hstems⟩ := Bindings.stemsFrom_afterChecking (b := ⟨supply, associations⟩) hquiet
      settings others hstart (fun d hd r hr => List.mem_flatMap.mpr ⟨d, hd, hr⟩) hapart.2
    have hafter := hstems.loadAll_fst hrefs hapart.1 fun r hr r' hr' => by
      obtain ⟨d, hd, hr'⟩ := List.mem_flatMap.mp hr'
      exact hkinds r hr d hd r' hr'
    have hfirst := (GrammarStore.stemsFrom_empty supply []).loadAll_fst hrefs hapart.1
      fun r hr r' hr' => by cases hr'
    have hinitial : ({} : RequestState) = ⟨{}, .never⟩ := rfl
    rw [hinitial, hs, runFrom_diagnostics hquiet, runFrom_diagnostics hquiet]
    dsimp only
    rw [hafter, hfirst]

/-- A location whose name does not tell what kind of grammar is there. -/
def sharedLocation : Url :=
  ⟨"file", none, .segments ["g.txt"], none, none⟩

/-- The supply of a definition at the shared location. -/
def sharedSupply : Supply :=
  .ofTexts [(sharedLocation, "<!ELEMENT a EMPTY>")]

/-- The reference of an instruction that tells a kind for the shared location. -/
def sharedAs (kind : GrammarKind) : GrammarReference :=
  ⟨.external sharedLocation, kind, .xmlModel, none⟩

/-- A document in the directory of the shared location. -/
def besideShared (name text : String) : Document :=
  .parse ⟨"file", none, .segments [name], none, none⟩ 1 .utf16 text.toList

/-- The same supply, if it counts the versions of a text. -/
def countingSupply : Supply :=
  { sharedSupply with told := fun _ => some "1" }

lemma toldApart_counting {r : GrammarReference} (h : r.carried? ≠ some "1") :
    r.ToldApart countingSupply := by
  rintro text htext htold
  have hprint : "1" = fingerprintOf text := Option.some.inj htold
  exact absurd (hprint ▸ htext) h

/-- One document asks for the shared location with a document element and declares another one
itself, and one asks for it without, both as a definition. -/
theorem requests_share_store_definitions :
    let declaring := besideShared "a.xml" "<!DOCTYPE a SYSTEM 'g.txt' [<!ELEMENT b EMPTY>]><a/>"
    let plain := besideShared "b.xml" "<?xml-model href='g.txt' type='application/xml-dtd'?><b/>"
    let earlier := [sharedAs .dtd, { sharedAs .relaxNg with root := some "a" }]
    countingSupply.interruptedAt = none ∧
    (∀ r' ∈ sharedAs .dtd :: earlier, r'.ToldApart countingSupply) ∧
    (∀ r' ∈ earlier, r'.key = (sharedAs .dtd).key → r'.kind = (sharedAs .dtd).kind) ∧
    ((GrammarStore.afterRequests countingSupply earlier).load countingSupply
      (sharedAs .dtd)).result =
      (sharedAs .dtd).compileFrom countingSupply ∧
    (∀ d ∈ [plain, declaring], ∀ r ∈ d.references [], r.ToldApart countingSupply) ∧
    (((Bindings.mk countingSupply []).diagnostics {} plain).runFrom
        ((Bindings.mk countingSupply []).afterChecking {} [declaring] {})).1 =
      (((Bindings.mk countingSupply []).diagnostics {} plain).runFrom {}).1 := by
  intro declaring plain earlier
  have hquiet : countingSupply.interruptedAt = none := rfl
  have hkinds : ∀ r' ∈ earlier, r'.key = (sharedAs .dtd).key → r'.kind = (sharedAs .dtd).kind := by
    decide
  have hcarried : ∀ r' ∈ sharedAs .dtd :: earlier, r'.carried? ≠ some "1" := by decide
  have hcarriedIn : ∀ d ∈ [plain, declaring], ∀ r ∈ d.references [], r.carried? ≠ some "1" := by
    decide +kernel
  have hapart := fun r' hr' => toldApart_counting (hcarried r' hr')
  have hapartIn := fun d hd r hr => toldApart_counting (hcarriedIn d hd r hr)
  obtain ⟨hrequests, hdocuments⟩ := requests_share_store hquiet
  exact ⟨hquiet, hapart, hkinds, (hrequests _ _ hapart hkinds).1, hapartIn,
    hdocuments [] {} [declaring] _ 1 .utf16 _ hapartIn (by decide +kernel)⟩

/-- **The grammar of another kind is handed out.**  After a location was asked for as a definition
it is one as well where it is asked for as a schema, although its text is none. -/
theorem store_mixes_kinds :
    ((GrammarStore.afterRequests sharedSupply [sharedAs .dtd]).load sharedSupply
        (sharedAs .relaxNg)).result.toOption.map Grammar.kind = some .dtd ∧
      ((sharedAs .relaxNg).compileFrom sharedSupply).toOption.map Grammar.kind = none := by
  decide +kernel

end XmlAdvisor
