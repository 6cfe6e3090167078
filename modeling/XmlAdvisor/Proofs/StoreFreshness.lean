import XmlAdvisor.Binding.Store
import Mathlib.Tactic.Lemma
import Mathlib.Tactic.SplitIfs

/-!
# Kept grammars are never stale

A run puts texts into a loader and takes them out, asks for grammars, and makes the store forget
some or all of what it keeps, in any order.  What is asked for is what compiling the current text
gives, as if nothing were ever kept.

* `Loader` — the texts that can be loaded, each with the fingerprint that is told of it, if any.
* `StoreStep`, `outcomes` — runs; `freshOutcomes` — the same runs without a store.
* `Vouched` — the invariant: each kept grammar is what some text compiles to, whose fingerprint it
  is kept under.
* **`outcomes_eq_fresh`** — the store cannot be noticed, as long as equal fingerprints at a location
  mean equal texts and a location with a document element is always asked for under one kind.
-/

namespace XmlAdvisor

/-! ## Loaders -/

/-- A text that can be loaded, and the fingerprint that is told of it without loading. -/
structure HeldText where
  text : String
  told : Option Fingerprint
  deriving DecidableEq, Repr

/-- The texts that can be loaded. -/
abbrev Loader := List (Url × HeldText)

namespace Loader

/-- Puts a text at a location, in place of the one there. -/
def insert (l : Loader) (uri : Url) (held : HeldText) : Loader :=
  (uri, held) :: l.filter (·.1 ≠ uri)

/-- Takes the text at a location away. -/
def remove (l : Loader) (uri : Url) : Loader :=
  l.filter (·.1 ≠ uri)

/-- The supply of the texts in a loader. -/
def supply (l : Loader) : Supply :=
  { Supply.ofTexts (l.map fun (uri, held) => (uri, held.text)) with
    told := fun uri => (l.lookup uri).bind HeldText.told }

end Loader

namespace Loader

lemma lookup_map_text (l : Loader) (uri : Url) :
    (l.map fun (uri, held) => (uri, held.text)).lookup uri = (l.lookup uri).map HeldText.text := by
  induction l with
  | nil => rfl
  | cons p l ih =>
      rw [List.map_cons, List.lookup_cons, List.lookup_cons, ih]
      cases uri == p.1 <;> rfl

lemma fetch_supply (l : Loader) (uri : Url) :
    l.supply.fetch uri =
      match l.lookup uri with
      | some held => .ok held.text
      | none => .error (.unknownLocation uri) := by
  simp only [supply, Supply.ofTexts]
  rw [lookup_map_text]
  cases l.lookup uri <;> rfl

lemma current?_supply (l : Loader) (uri : Url) :
    l.supply.current? uri = (l.lookup uri).bind HeldText.told := rfl

end Loader

/-! ## Runs -/

/-- A step of a run. -/
inductive StoreStep
  | insert (uri : Url) (held : HeldText)
  | remove (uri : Url)
  | request (r : GrammarReference)
  | invalidate (uri : Url)
  | evictDocument (document : Url)
  | clear
  deriving DecidableEq, Repr

namespace StoreStep

/-- What a step does to the loader. -/
def onLoader : StoreStep → Loader → Loader
  | .insert uri held, l => l.insert uri held
  | .remove uri, l => l.remove uri
  | _, l => l

/-- What a step does to the store, with the given loader. -/
def onStore (l : Loader) : StoreStep → GrammarStore → GrammarStore
  | .insert _ _, s | .remove _, s => s
  | .request r, s => (s.load l.supply r).store
  | .invalidate uri, s => (s.invalidate uri).2
  | .evictDocument document, s => (s.evictDocument document).2
  | .clear, s => s.clear

end StoreStep

/-- What the requests of a run give. -/
def outcomes : List StoreStep → Loader → GrammarStore → List (Except GrammarError Grammar)
  | [], _, _ => []
  | step :: more, l, s =>
    let rest := outcomes more (step.onLoader l) (step.onStore l s)
    match step with
    | .request r => (s.load l.supply r).result :: rest
    | _ => rest

/-- What compiling the current text of a reference gives: the one it carries or the one that is
loaded. -/
def GrammarReference.compileCurrent (r : GrammarReference) (l : Loader) :
    Except GrammarError Grammar :=
  match r.source with
  | .inline _ text => r.compile text
  | .external uri => (l.supply.fetch uri).bind r.compile

/-- What the requests of a run give when every text is compiled anew. -/
def freshOutcomes : List StoreStep → Loader → List (Except GrammarError Grammar)
  | [], _ => []
  | step :: more, l =>
    match step with
    | .request r => r.compileCurrent l :: freshOutcomes more l
    | _ => freshOutcomes more (step.onLoader l)

/-! ## What a run uses -/

/-- The fingerprint that a grammar of the text is kept under: the one that is told, or else the
text's own. -/
def HeldText.fingerprint (held : HeldText) : Fingerprint :=
  held.told.getD (fingerprintOf held.text)

namespace StoreStep

/-- The fingerprint that a step brings to a location, with its text. -/
def marks : StoreStep → List ((Url × Fingerprint) × String)
  | .insert uri held => [((uri, held.fingerprint), held.text)]
  | .request r =>
    match r.source with
    | .inline uri text => [((uri, fingerprintOf text), text)]
    | .external _ => []
  | _ => []

/-- The reference that a step asks for. -/
def asked : StoreStep → List GrammarReference
  | .request r => [r]
  | _ => []

end StoreStep

/-! ## The invariant -/

section Invariant

variable {marks : List ((Url × Fingerprint) × String)} {asked : List GrammarReference}

/-- Whether each kept grammar is what a text compiles to for a reference that is asked for, under
the fingerprint and the key of the two. -/
def Vouched (marks : List ((Url × Fingerprint) × String)) (asked : List GrammarReference)
    (s : GrammarStore) : Prop :=
  ∀ e ∈ s.entries, ∃ r ∈ asked, ∃ text, ((e.key.uri, e.fingerprint), text) ∈ marks ∧
    r.key = e.key ∧ r.compile text = .ok e.grammar

/-- Whether the texts in a loader are those that fingerprints are known of. -/
def Loader.Marked (marks : List ((Url × Fingerprint) × String)) (l : Loader) : Prop :=
  ∀ p ∈ l, ((p.1, p.2.fingerprint), p.2.text) ∈ marks

lemma Loader.Marked.of_lookup {l : Loader} (h : l.Marked marks) {uri : Url} {held : HeldText}
    (hlookup : l.lookup uri = some held) : ((uri, held.fingerprint), held.text) ∈ marks := by
  obtain ⟨before, after, rfl, -⟩ := List.lookup_eq_some_iff.mp hlookup
  exact h (uri, held) (by simp)

/-- A step keeps the loader to texts that fingerprints are known of. -/
lemma Loader.Marked.onLoader {l : Loader} (h : l.Marked marks) (step : StoreStep)
    (hmarks : step.marks ⊆ marks) : (step.onLoader l).Marked marks := by
  cases step with
  | insert uri held =>
      intro p hp
      rcases List.mem_cons.mp hp with rfl | hp
      · exact hmarks (by simp [StoreStep.marks])
      · exact h p (List.mem_filter.mp hp).1
  | remove uri => exact fun p hp => h p (List.mem_filter.mp hp).1
  | _ => exact h

lemma vouched_empty : Vouched marks asked {} := by
  intro e he
  cases he

/-- Forgetting keeps the invariant. -/
lemma Vouched.of_subset {s s' : GrammarStore} (h : Vouched marks asked s)
    (hsub : ∀ e ∈ s'.entries, e ∈ s.entries) : Vouched marks asked s' :=
  fun e he => h e (hsub e he)

/-- What a text compiles to depends on the key and the kind of the reference alone. -/
lemma compile_congr {r r' : GrammarReference} (hkey : r.key = r'.key) (hkind : r.kind = r'.kind)
    (text : String) : r.compile text = r'.compile text := by
  obtain ⟨huri, hroot⟩ := StoreKey.mk.inj hkey
  rw [GrammarReference.compile, GrammarReference.compile, huri, hroot, hkind]

variable (distinct : ∀ p ∈ marks, ∀ q ∈ marks, p.1 = q.1 → p.2 = q.2)
  (oneKind : ∀ r ∈ asked, ∀ r' ∈ asked, r.key = r'.key → r.kind = r'.kind)
include distinct oneKind

/-- A kept grammar that serves is what the text compiles to. -/
lemma Vouched.compile_of_find? {s : GrammarStore} (h : Vouched marks asked s)
    {r : GrammarReference} (hr : r ∈ asked) {fingerprint : Fingerprint} {text : String}
    (hmark : ((r.source.uri, fingerprint), text) ∈ marks) {g : Grammar}
    (hfind : s.find? r.key fingerprint = some g) : r.compile text = .ok g := by
  obtain ⟨e, he, rfl⟩ := Option.map_eq_some_iff.mp hfind
  have hmatch := List.find?_some he
  simp only [Bool.and_eq_true, decide_eq_true_eq] at hmatch
  obtain ⟨hkey, hprint⟩ := hmatch
  obtain ⟨r', hr', text', hmark', hkey', hcompile⟩ := h e (List.mem_of_find?_eq_some he)
  have hplace : (r.source.uri, fingerprint) = (e.key.uri, e.fingerprint) := by
    rw [hkey, hprint]
    rfl
  have htext : text = text' := distinct _ hmark _ hmark' hplace
  have hsame : r.key = r'.key := hkey.symm.trans hkey'.symm
  rw [htext, compile_congr hsame (oneKind r hr r' hr' hsame), hcompile]

/-- Finding or compiling gives what the text compiles to and keeps the invariant. -/
lemma Vouched.ofText {s : GrammarStore} (h : Vouched marks asked s) {r : GrammarReference}
    (hr : r ∈ asked) {fingerprint : Fingerprint} {text : String}
    (hmark : ((r.source.uri, fingerprint), text) ∈ marks) :
    (s.ofText r fingerprint text).1 = r.compile text ∧
      Vouched marks asked (s.ofText r fingerprint text).2 := by
  rw [GrammarStore.ofText]
  cases hfind : s.find? r.key fingerprint with
  | some g => exact ⟨(h.compile_of_find? distinct oneKind hr hmark hfind).symm, h⟩
  | none =>
      cases hcompile : r.compile text with
      | error e => exact ⟨rfl, h⟩
      | ok g =>
          refine ⟨rfl, fun e he => ?_⟩
          rcases List.mem_cons.mp he with rfl | he
          · exact ⟨r, hr, text, hmark, rfl, hcompile⟩
          · exact h e (List.mem_filter.mp he).1

/-- Asking for a grammar gives what the current text compiles to and keeps the invariant. -/
lemma Vouched.load {s : GrammarStore} (h : Vouched marks asked s) {l : Loader}
    (hl : l.Marked marks) {r : GrammarReference} (hr : r ∈ asked)
    (hinline : ∀ uri text, r.source = .inline uri text →
      ((uri, fingerprintOf text), text) ∈ marks) :
    (s.load l.supply r).result = r.compileCurrent l ∧
      Vouched marks asked (s.load l.supply r).store := by
  rw [GrammarStore.load, GrammarReference.compileCurrent]
  cases hsource : r.source with
  | inline uri text =>
      have huri : r.source.uri = uri := by rw [hsource]; rfl
      exact h.ofText distinct oneKind hr (huri ▸ hinline uri text hsource)
  | external uri =>
      dsimp only
      rw [l.fetch_supply, l.current?_supply]
      cases hlookup : l.lookup uri with
      | none =>
          simp only [Option.bind_none, GrammarStore.ofLoaded, l.fetch_supply, hlookup]
          exact ⟨rfl, h⟩
      | some held =>
          have huri : r.source.uri = uri := by rw [hsource]; rfl
          have hmark := huri ▸ hl.of_lookup hlookup
          -- whether a fingerprint is told or not, the text is loaded and kept under `fingerprint`
          have hloaded : (s.ofLoaded l.supply r uri).result = r.compile held.text ∧
              Vouched marks asked (s.ofLoaded l.supply r uri).store := by
            simp only [GrammarStore.ofLoaded, l.fetch_supply, l.current?_supply, hlookup,
              Option.bind_some]
            have hcounted : Vouched marks asked { s with loads := s.loads + 1 } := h
            exact hcounted.ofText distinct oneKind hr hmark
          cases hfind : ((some held).bind HeldText.told).bind (s.find? r.key) with
          | none => exact hloaded
          | some g =>
              obtain ⟨f, htold, hg⟩ := Option.bind_eq_some_iff.mp hfind
              have hf : held.fingerprint = f := by
                simp only [Option.bind_some] at htold
                simp [HeldText.fingerprint, htold]
              rw [← hf] at hg
              exact ⟨(h.compile_of_find? distinct oneKind hr hmark hg).symm, h⟩

/-- A step keeps the invariant of the store. -/
lemma Vouched.onStore {s : GrammarStore} (h : Vouched marks asked s) {l : Loader}
    (hl : l.Marked marks) (step : StoreStep) (hmarks : step.marks ⊆ marks)
    (hasked : step.asked ⊆ asked) : Vouched marks asked (step.onStore l s) := by
  cases step with
  | insert uri held => exact h
  | remove uri => exact h
  | request r =>
      refine (h.load distinct oneKind hl (hasked (by simp [StoreStep.asked])) ?_).2
      intro uri text hsource
      exact hmarks (by simp [StoreStep.marks, hsource])
  | invalidate uri => exact h.of_subset fun e he => (List.mem_filter.mp he).1
  | evictDocument document => exact h.of_subset fun e he => (List.mem_filter.mp he).1
  | clear => exact vouched_empty

/-- From a store that the invariant holds of, a run gives what it gives without a store. -/
lemma Vouched.outcomes_eq (steps : List StoreStep) {l : Loader} {s : GrammarStore}
    (h : Vouched marks asked s) (hl : l.Marked marks)
    (hmarks : steps.flatMap StoreStep.marks ⊆ marks)
    (hasked : steps.flatMap StoreStep.asked ⊆ asked) :
    outcomes steps l s = freshOutcomes steps l := by
  induction steps generalizing l s with
  | nil => rfl
  | cons step more ih =>
      rw [List.flatMap_cons, List.append_subset] at hmarks hasked
      have hrest := ih (h.onStore distinct oneKind hl step hmarks.1 hasked.1)
        (hl.onLoader step hmarks.1) hmarks.2 hasked.2
      cases step with
      | request r =>
          have hresult := (h.load distinct oneKind hl (r := r)
            (hasked.1 (by simp [StoreStep.asked]))
            fun uri text hsource => hmarks.1 (by simp [StoreStep.marks, hsource])).1
          rw [outcomes, freshOutcomes, hresult, hrest]
          rfl
      | _ => exact hrest

end Invariant

/-- **Kept grammars are never stale.**  A run from an empty store gives, request by request, what
compiling the current texts gives, whether as a grammar or as an error: provided that in the run
equal fingerprints at a location mean equal texts, and that a location with a document element is
always asked for under one kind. -/
theorem outcomes_eq_fresh (steps : List StoreStep)
    (distinct : ∀ p ∈ steps.flatMap StoreStep.marks, ∀ q ∈ steps.flatMap StoreStep.marks,
      p.1 = q.1 → p.2 = q.2)
    (oneKind : ∀ r ∈ steps.flatMap StoreStep.asked, ∀ r' ∈ steps.flatMap StoreStep.asked,
      r.key = r'.key → r.kind = r'.kind) :
    outcomes steps [] {} = freshOutcomes steps [] :=
  Vouched.outcomes_eq distinct oneKind steps vouched_empty (fun _ hp => by cases hp)
    (List.Subset.refl _) (List.Subset.refl _)

/-- A reference to a definition in a file, or in a document if a text is given. -/
def dtdReference (text? : Option String) : GrammarReference :=
  let uri : Url := ⟨"file", none, .segments ["a.dtd"], none, none⟩
  ⟨match text? with
    | none => .external uri
    | some text => .inline uri text, .dtd, .docType, none⟩

/-- A text that changes and changes back, with its fingerprint told or not, next to one that is
carried by its reference. -/
def changingRun : List StoreStep :=
  let uri := (dtdReference none).source.uri
  [.insert uri ⟨"<!ELEMENT a EMPTY>", some "1"⟩, .request (dtdReference none),
    .insert uri ⟨"<!ELEMENT", some "2"⟩, .request (dtdReference none),
    .insert uri ⟨"<!ELEMENT a EMPTY>", none⟩, .request (dtdReference none),
    .request (dtdReference (some "<!ELEMENT b ANY>")), .remove uri, .request (dtdReference none),
    .invalidate uri, .evictDocument uri, .clear]

theorem outcomes_changingRun : outcomes changingRun [] {} = freshOutcomes changingRun [] :=
  outcomes_eq_fresh changingRun (by decide) (by decide)

end XmlAdvisor
