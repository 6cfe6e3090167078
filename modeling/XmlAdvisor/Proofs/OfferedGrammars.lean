import XmlAdvisor.Advice.Diagnose
import XmlAdvisor.Proofs.Reporting
import XmlAdvisor.Proofs.TreeNesting

/-!
# Requests that find the same grammars

Whether a request is about diagnostics, actions or their edits, it asks the store for the grammars
of a document first, and more than once.  What it finds there stays the same from one time to the
next: loading under one key does not touch what is kept under others, a document asks under each key
once, and what was loaded is found again.

* `GrammarStore.loadAll` — the grammars of references, without the looks for a cancellation.
* `GrammarReference.Apart` — references under different keys; `references_apart` — those of a
  document are.
* `Reads` — what a request gives from any store of some sort, leaving such a store.  There is one
  rule for each way to put requests together.
* `Bindings.Offers` — which grammars a store offers to a document, the sort of store that matters.
* **`runFrom_diagnostics`** — the diagnostics of a document follow from what is offered.
-/

namespace XmlAdvisor

/-! ## One load after another -/

namespace GrammarStore

variable {supply : Supply} {s s' : GrammarStore} {r r' : GrammarReference}

/-- Whether two stores keep the same under a key. -/
def AgreeAt (key : StoreKey) (s s' : GrammarStore) : Prop :=
  ∀ fingerprint, s.find? key fingerprint = s'.find? key fingerprint

lemma AgreeAt.refl (key : StoreKey) (s : GrammarStore) : AgreeAt key s s :=
  fun _ => rfl

lemma AgreeAt.trans {key : StoreKey} {s'' : GrammarStore} (h : AgreeAt key s s')
    (h' : AgreeAt key s' s'') : AgreeAt key s s'' :=
  fun fingerprint => (h fingerprint).trans (h' fingerprint)

lemma find?_put_self (s : GrammarStore) (e : StoreEntry) :
    (s.put e).find? e.key e.fingerprint = some e.grammar := by
  simp [find?, put]

lemma agreeAt_put (s : GrammarStore) {e : StoreEntry} {key : StoreKey} (h : e.key ≠ key) :
    AgreeAt key s (s.put e) := by
  intro fingerprint
  have hsame : (fun x : StoreEntry => !decide (x.key = e.key) &&
      (decide (x.key = key) && decide (x.fingerprint = fingerprint))) =
      fun x => decide (x.key = key) && decide (x.fingerprint = fingerprint) := by
    funext x
    by_cases hx : x.key = key
    · have hne : x.key ≠ e.key := fun heq => h (heq.symm.trans hx)
      simp [hne]
    · simp [hx]
  simp [find?, put, h, hsame]

/-! ### What loading does -/

lemma load_inline {uri : Url} {text : String} (h : r.source = .inline uri text) :
    s.load supply r = ⟨(s.ofText r (fingerprintOf text) text).1,
      (s.ofText r (fingerprintOf text) text).2, false⟩ := by
  rw [load, h]

lemma load_found {uri : Url} (h : r.source = .external uri) {g : Grammar}
    (hfound : (supply.current? uri).bind (s.find? r.key) = some g) :
    s.load supply r = ⟨.ok g, s, false⟩ := by
  rw [load, h]
  dsimp only
  rw [hfound]

lemma load_missing {uri : Url} (h : r.source = .external uri)
    (hmissing : (supply.current? uri).bind (s.find? r.key) = none) :
    s.load supply r = s.ofLoaded supply r uri := by
  rw [load, h]
  dsimp only
  rw [hmissing]

/-- A text that is loaded is looked up under the fingerprint that was told, or else its own. -/
lemma ofLoaded_ok {uri : Url} {text : String} (h : supply.fetch uri = .ok text) :
    s.ofLoaded supply r uri =
      ⟨({ s with loads := s.loads + 1 }.ofText r
          ((supply.current? uri).getD (fingerprintOf text)) text).1,
        ({ s with loads := s.loads + 1 }.ofText r
          ((supply.current? uri).getD (fingerprintOf text)) text).2, true⟩ := by
  rw [ofLoaded, h]

lemma ofLoaded_error {uri : Url} {e : GrammarError} (h : supply.fetch uri = .error e) :
    s.ofLoaded supply r uri = ⟨.error e, s, true⟩ := by
  rw [ofLoaded, h]

/-! ### What it depends on, and what it leaves -/

/-- What comes of a text depends on what is kept under its key. -/
lemma ofText_fst_congr (h : AgreeAt r.key s s') (fingerprint : Fingerprint) (text : String) :
    (s.ofText r fingerprint text).1 = (s'.ofText r fingerprint text).1 := by
  rw [ofText, ofText, h fingerprint]
  cases s'.find? r.key fingerprint with
  | some g => rfl
  | none => cases r.compile text <;> rfl

/-- What comes of a reference depends on what is kept under its key. -/
lemma load_result_congr (h : AgreeAt r.key s s') :
    (s.load supply r).result = (s'.load supply r).result := by
  cases hsource : r.source with
  | inline uri text =>
      rw [load_inline hsource, load_inline hsource]
      exact ofText_fst_congr h _ text
  | external uri =>
      have hfind : s.find? r.key = s'.find? r.key := funext h
      cases hfound : (supply.current? uri).bind (s'.find? r.key) with
      | some g => rw [load_found hsource (hfind ▸ hfound), load_found hsource hfound]
      | none =>
          rw [load_missing hsource (hfind ▸ hfound), load_missing hsource hfound]
          cases hfetch : supply.fetch uri with
          | error e => rw [ofLoaded_error hfetch, ofLoaded_error hfetch]
          | ok text =>
              have hcounted : AgreeAt r.key { s with loads := s.loads + 1 }
                  { s' with loads := s'.loads + 1 } := h
              rw [ofLoaded_ok hfetch, ofLoaded_ok hfetch]
              exact ofText_fst_congr hcounted _ text

/-- Finding or compiling a text leaves what is kept under other keys. -/
lemma agreeAt_ofText (s : GrammarStore) {key : StoreKey} (h : r.key ≠ key)
    (fingerprint : Fingerprint) (text : String) :
    AgreeAt key s (s.ofText r fingerprint text).2 := by
  rw [ofText]
  cases s.find? r.key fingerprint with
  | some g => exact .refl key s
  | none =>
      cases r.compile text with
      | error e => exact .refl key s
      | ok g => exact s.agreeAt_put h

/-- Loading leaves what is kept under other keys. -/
lemma agreeAt_load (s : GrammarStore) (supply : Supply) {key : StoreKey} (h : r.key ≠ key) :
    AgreeAt key s (s.load supply r).store := by
  cases hsource : r.source with
  | inline uri text =>
      rw [load_inline hsource]
      exact s.agreeAt_ofText h _ text
  | external uri =>
      cases hfound : (supply.current? uri).bind (s.find? r.key) with
      | some g =>
          rw [load_found hsource hfound]
          exact .refl key s
      | none =>
          rw [load_missing hsource hfound]
          cases hfetch : supply.fetch uri with
          | error e =>
              rw [ofLoaded_error hfetch]
              exact .refl key s
          | ok text =>
              rw [ofLoaded_ok hfetch]
              exact agreeAt_ofText { s with loads := s.loads + 1 } h _ text

/-- A text whose grammar was found or compiled gives the same again. -/
lemma ofText_again (s : GrammarStore) (r : GrammarReference) (fingerprint : Fingerprint)
    (text : String) :
    ((s.ofText r fingerprint text).2.ofText r fingerprint text).1
      = (s.ofText r fingerprint text).1 := by
  cases hfind : s.find? r.key fingerprint with
  | some g =>
      have hfound : s.ofText r fingerprint text = (.ok g, s) := by rw [ofText, hfind]
      rw [hfound, hfound]
  | none =>
      cases hcompile : r.compile text with
      | error e =>
          have hfailed : s.ofText r fingerprint text = (.error e, s) := by
            rw [ofText, hfind]
            simp only [hcompile]
          rw [hfailed, hfailed]
      | ok g =>
          have hput : s.ofText r fingerprint text = (.ok g, s.put ⟨r.key, fingerprint, g⟩) := by
            rw [ofText, hfind]
            simp only [hcompile]
          rw [hput, ofText, s.find?_put_self ⟨r.key, fingerprint, g⟩]

/-- What was asked for once comes of it again. -/
lemma load_again (s : GrammarStore) (supply : Supply) (r : GrammarReference) :
    ((s.load supply r).store.load supply r).result = (s.load supply r).result := by
  cases hsource : r.source with
  | inline uri text =>
      rw [load_inline hsource, load_inline hsource]
      exact s.ofText_again r _ text
  | external uri =>
      cases hfound : (supply.current? uri).bind (s.find? r.key) with
      | some g => rw [load_found hsource hfound, load_found hsource hfound]
      | none =>
          rw [load_missing hsource hfound]
          cases hfetch : supply.fetch uri with
          | error e =>
              rw [ofLoaded_error hfetch]
              dsimp only
              rw [load_missing hsource hfound, ofLoaded_error hfetch]
          | ok text =>
              rw [ofLoaded_ok hfetch]
              dsimp only
              generalize hprint : (supply.current? uri).getD (fingerprintOf text) = fingerprint
              have hagain := ofText_again { s with loads := s.loads + 1 } r fingerprint text
              generalize { s with loads := s.loads + 1 }.ofText r fingerprint text = first
                at hagain ⊢
              cases hkept : (supply.current? uri).bind (first.2.find? r.key) with
              | some g =>
                  -- what is found now was put there under the fingerprint that was told
                  obtain ⟨told, htold, hg⟩ := Option.bind_eq_some_iff.mp hkept
                  rw [htold, Option.getD_some] at hprint
                  rw [load_found hsource hkept, ← hagain, GrammarStore.ofText, ← hprint, hg]
              | none =>
                  have hcounted : AgreeAt r.key { first.2 with loads := first.2.loads + 1 }
                      first.2 := fun _ => rfl
                  rw [load_missing hsource hkept, ofLoaded_ok hfetch, hprint, ← hagain]
                  exact ofText_fst_congr hcounted _ text

/-! ### All references -/

/-- The grammars of references, without those that cannot be had, and the store that is left. -/
def loadAll (supply : Supply) : List GrammarReference → GrammarStore → List Grammar × GrammarStore
  | [], s => ([], s)
  | r :: more, s =>
    let rest := loadAll supply more (s.load supply r).store
    ((s.load supply r).result.toOption.toList ++ rest.1, rest.2)

/-- Loading leaves what is kept under the keys of no reference. -/
lemma agreeAt_loadAll (s : GrammarStore) (supply : Supply) {refs : List GrammarReference}
    {key : StoreKey} (h : ∀ r ∈ refs, r.key ≠ key) : AgreeAt key s (s.loadAll supply refs).2 := by
  induction refs generalizing s with
  | nil => exact .refl key s
  | cons r more ih =>
      have hfirst := s.agreeAt_load supply (h r (List.mem_cons_self ..))
      exact hfirst.trans (ih (s.load supply r).store fun r' hr' =>
        h r' (List.mem_cons_of_mem r hr'))

end GrammarStore

/-- Whether references are kept under different keys. -/
def GrammarReference.Apart (refs : List GrammarReference) : Prop :=
  refs.Pairwise fun r r' => r.key ≠ r'.key

namespace GrammarStore

variable {supply : Supply} {refs : List GrammarReference}

/-- References under different keys do not get in each other's way. -/
lemma loadAll_fst (h : GrammarReference.Apart refs) (s : GrammarStore) :
    (s.loadAll supply refs).1 = refs.flatMap fun r => (s.load supply r).result.toOption.toList := by
  induction refs generalizing s with
  | nil => rfl
  | cons r more ih =>
      obtain ⟨hapart, hmore⟩ := List.pairwise_cons.mp h
      rw [loadAll, List.flatMap_cons]
      dsimp only
      rw [ih hmore]
      congr 1
      refine List.flatMap_congr fun r' hr' => ?_
      rw [load_result_congr (s.agreeAt_load supply (hapart r' hr'))]

/-- What was loaded is found again. -/
lemma loadAll_again (h : GrammarReference.Apart refs) (s : GrammarStore) :
    ((s.loadAll supply refs).2.loadAll supply refs).1 = (s.loadAll supply refs).1 := by
  have hresult : ∀ r ∈ refs, ((s.loadAll supply refs).2.load supply r).result =
      (s.load supply r).result := by
    induction refs generalizing s with
    | nil =>
        intro r hr
        cases hr
    | cons r more ih =>
        obtain ⟨hapart, hmore⟩ := List.pairwise_cons.mp h
        intro r' hr'
        rw [loadAll]
        rcases List.mem_cons.mp hr' with rfl | hr'
        · have hlater := (s.load supply r').store.agreeAt_loadAll supply
            fun x hx => (hapart x hx).symm
          rw [← load_result_congr hlater, load_again]
        · rw [ih hmore _ r' hr', ← load_result_congr (s.agreeAt_load supply (hapart r' hr'))]
  rw [loadAll_fst h, loadAll_fst h]
  refine List.flatMap_congr fun r hr => ?_
  rw [hresult r hr]

end GrammarStore

/-! ## The references of a document -/

section References

variable {refs more : List GrammarReference}

lemma addReference_cases (refs : List GrammarReference) (r : GrammarReference) :
    addReference refs r = refs ∨ addReference refs r = refs ++ [r] := by
  rw [addReference]
  split
  · exact .inr rfl
  · split_ifs
    · exact .inl rfl
    · exact .inr rfl

lemma mem_addReference {r r' : GrammarReference} (h : r' ∈ addReference refs r) :
    r' ∈ refs ∨ r' = r := by
  rcases addReference_cases refs r with heq | heq
  · exact .inl (heq ▸ h)
  · rw [heq] at h
    simpa using h

lemma mem_foldl_addReference {r : GrammarReference} (h : r ∈ more.foldl addReference refs) :
    r ∈ refs ∨ r ∈ more := by
  induction more generalizing refs with
  | nil => exact .inl h
  | cons r' more ih =>
      rcases ih h with h | h
      · rcases mem_addReference h with h | rfl
        · exact .inl h
        · exact .inr (List.mem_cons_self ..)
      · exact .inr (List.mem_cons_of_mem r' h)

lemma apart_append {r : GrammarReference} (h : GrammarReference.Apart refs)
    (hr : ∀ r' ∈ refs, r'.key ≠ r.key) : GrammarReference.Apart (refs ++ [r]) := by
  refine List.pairwise_append.mpr ⟨h, List.pairwise_singleton _ _, fun r' hr' x hx => ?_⟩
  rw [List.mem_singleton.mp hx]
  exact hr r' hr'

/-- A location that is not there yet is a key that is not there yet. -/
lemma apart_addReference {r : GrammarReference} {uri : Url} (h : GrammarReference.Apart refs)
    (hsource : r.source = .external uri) : GrammarReference.Apart (addReference refs r) := by
  rw [addReference, hsource]
  dsimp only
  split_ifs with hthere
  · exact h
  · refine apart_append h fun r' hr' hkey => hthere ?_
    have huri : r'.source.uri = uri := by
      have hsame := congrArg StoreKey.uri hkey
      rw [GrammarReference.key, GrammarReference.key, hsource] at hsame
      exact hsame
    exact List.any_eq_true.mpr ⟨r', hr', decide_eq_true huri⟩

lemma apart_foldl_addReference (h : GrammarReference.Apart refs)
    (hmore : ∀ r ∈ more, ∃ uri, r.source = .external uri) :
    GrammarReference.Apart (more.foldl addReference refs) := by
  induction more generalizing refs with
  | nil => exact h
  | cons r more ih =>
      obtain ⟨uri, huri⟩ := hmore r (List.mem_cons_self ..)
      exact ih (apart_addReference h huri) fun r' hr' => hmore r' (List.mem_cons_of_mem r hr')

lemma externalReference?_eq_some {uri : Url} {kind : Option GrammarKind} {origin : ReferenceOrigin}
    {root : Option String} {r : GrammarReference}
    (h : externalReference? uri kind origin root = some r) :
    r.source = .external uri ∧ r.root = root := by
  obtain ⟨k, -, rfl⟩ := Option.map_eq_some_iff.mp h
  exact ⟨rfl, rfl⟩

lemma instructionReference?_eq_some {document : Url} {data : Option String} {r : GrammarReference}
    (h : instructionReference? document data = some r) :
    (∃ uri, r.source = .external uri) ∧ r.root = none := by
  simp only [instructionReference?, Option.bind_eq_bind, Option.bind_eq_some_iff] at h
  obtain ⟨href, -, uri, -, h⟩ := h
  obtain ⟨hsource, hroot⟩ := externalReference?_eq_some h
  exact ⟨⟨uri, hsource⟩, hroot⟩

lemma subsetReference?_eq_some {document : Url} {t : DocumentType} {r : GrammarReference}
    (h : subsetReference? document t = some r) : r.root = t.root? := by
  simp only [subsetReference?, Option.bind_eq_bind, Option.bind_eq_some_iff] at h
  obtain ⟨text, -, h⟩ := h
  split_ifs at h
  cases h
  rfl

lemma systemReference?_eq_some {document : Url} {t : DocumentType} {r : GrammarReference}
    (h : systemReference? document t = some r) : ∃ uri, r.source = .external uri := by
  simp only [systemReference?, Option.bind_eq_bind, Option.bind_eq_some_iff] at h
  obtain ⟨systemId, -, uri, -, h⟩ := h
  exact ⟨uri, (externalReference?_eq_some h).1⟩

lemma associationReference?_eq_some {document : Url} {a : Association} {r : GrammarReference}
    (h : associationReference? document a = some r) : ∃ uri, r.source = .external uri := by
  rw [associationReference?] at h
  split_ifs at h
  obtain ⟨uri, -, h⟩ := Option.bind_eq_some_iff.mp h
  exact ⟨uri, (externalReference?_eq_some h).1⟩

/-- A document type of a document has a name. -/
lemma root?_isSome {d : Document} (hd : d.toTree.Nests) {t : DocumentType}
    (ht : d.doctype? = some t) : t.root? = some t.name := by
  simp only [Tree.doctype?, Option.bind_eq_bind, Option.bind_eq_some_iff] at ht
  obtain ⟨id, -, n, hn, ht⟩ := ht
  have hkind : n.kind = .doctype t := by
    split at ht
    · rename_i t' hkind
      cases ht
      exact hkind
    · cases ht
  have hname := (hd.settled id n hn).named t hkind
  rw [DocumentType.root?, if_neg (by simpa using hname)]

/-- **The references of a document are kept under different keys**: an internal subset asks for a
document element, the instructions before it do not, and no other location occurs twice. -/
theorem references_apart {d : Document} (hd : d.toTree.Nests) (associations : List Association) :
    GrammarReference.Apart (d.references associations) := by
  rw [Document.references, Document.candidateReferences, List.foldl_append, List.foldl_append]
  refine apart_foldl_addReference ?_ fun r hr => ?_
  · generalize hinstructions : d.instructions.filterMap _ = instructions
    have hplain : ∀ r ∈ instructions, (∃ uri, r.source = .external uri) ∧ r.root = none := by
      intro r hr
      rw [← hinstructions] at hr
      obtain ⟨⟨target, data⟩, -, h⟩ := List.mem_filterMap.mp hr
      dsimp only at h
      split_ifs at h
      exact instructionReference?_eq_some h
    have hfirst : GrammarReference.Apart (instructions.foldl addReference []) :=
      apart_foldl_addReference .nil fun r hr => (hplain r hr).1
    have hroots : ∀ r ∈ instructions.foldl addReference [], r.root = none := by
      intro r hr
      rcases mem_foldl_addReference hr with hr | hr
      · cases hr
      · exact (hplain r hr).2
    cases ht : d.doctype? with
    | none => exact hfirst
    | some t =>
        rw [Option.toList_some, List.flatMap_singleton, List.foldl_append]
        refine apart_foldl_addReference ?_ fun r hr => ?_
        · cases hsubset : subsetReference? d.url t with
          | none => exact hfirst
          | some r =>
              rw [Option.toList_some, List.foldl_cons, List.foldl_nil]
              have hr : r.root = some t.name := by
                rw [subsetReference?_eq_some hsubset, root?_isSome hd ht]
              rcases addReference_cases (instructions.foldl addReference []) r with heq | heq
              · rw [heq]
                exact hfirst
              · rw [heq]
                refine apart_append hfirst fun r' hr' hkey => ?_
                have hsame : r'.root = r.root := congrArg StoreKey.root hkey
                rw [hr, hroots r' hr'] at hsame
                cases hsame
        · exact systemReference?_eq_some (Option.mem_toList.mp hr)
  · obtain ⟨a, -, h⟩ := List.mem_filterMap.mp hr
    exact associationReference?_eq_some h

end References

/-! ## What a request gives from stores of one sort -/

/-- Whether a value can stand in for what fails, since nothing was given up. -/
def Recoverable {α : Type} (v : Except RequestError α) : Prop :=
  v ≠ .error .cancelled

/-- What a request gives is kept, and a value stands in for a failure. -/
lemma Request.runFrom_orElseValue {α : Type} {r : Request α} {v : Except RequestError α}
    {s s' : RequestState} (value : α) (h : r.runFrom s = (v, s')) (hv : Recoverable v) :
    (r.orElseValue value).runFrom s = (.ok (v.toOption.getD value), s') := by
  simp only [runFrom, ExceptT.run, StateT.run] at h
  simp only [orElseValue, runFrom, ExceptT.run, StateT.run, tryCatch, tryCatchThe,
    MonadExceptOf.tryCatch, ExceptT.tryCatch, ExceptT.mk, bind, StateT.bind]
  rw [h]
  cases v with
  | ok a => rfl
  | error e =>
      cases e with
      | cancelled => exact absurd rfl hv
      | _ => rfl

/-- Whether a request, from each store of some sort, gives a value or fails as told, and leaves such
a store. -/
def Reads {α : Type} (P : GrammarStore → Prop) (m : Request α) (v : Except RequestError α) : Prop :=
  ∀ s : GrammarStore, P s →
    ∃ s' : GrammarStore, m.runFrom ⟨s, .never⟩ = (v, ⟨s', .never⟩) ∧ P s'

namespace Reads

variable {α β : Type} {P : GrammarStore → Prop} {m : Request α}

lemma pure (a : α) : Reads P (Pure.pure a) (.ok a) :=
  fun s hs => ⟨s, rfl, hs⟩

lemma throw (e : RequestError) : Reads P (MonadExcept.throw e : Request α) (.error e) :=
  fun s hs => ⟨s, rfl, hs⟩

lemma ofExcept (v : Except RequestError α) : Reads P (Request.ofExcept v) v := by
  cases v with
  | error e => exact .throw e
  | ok a => exact .pure a

lemma ofPlace {v : Except PlaceError α} {a : α} (h : v = .ok a) :
    Reads P (Request.ofPlace v) (.ok a) := by
  rw [Request.ofPlace, h]
  exact .ofExcept _

lemma check : Reads P Request.check (.ok ()) :=
  fun s hs => ⟨s, rfl, hs⟩

/-- A request goes on from the store that its first step leaves. -/
lemma bind {f : α → Request β} {v : Except RequestError α} {w : Except RequestError β}
    (hm : Reads P m v) (hok : ∀ a, v = .ok a → Reads P (f a) w)
    (herror : ∀ e, v = .error e → w = .error e) : Reads P (m >>= f) w := by
  intro s hs
  obtain ⟨s', hrun, hs'⟩ := hm s hs
  rw [Request.runFrom_bind, hrun]
  cases v with
  | error e => exact ⟨s', by rw [herror e rfl], hs'⟩
  | ok a => exact hok a rfl s' hs'

lemma andThen {f : α → Request β} {a : α} {w : Except RequestError β} (hm : Reads P m (.ok a))
    (hf : Reads P (f a) w) : Reads P (m >>= f) w :=
  hm.bind (by rintro _ ⟨⟩; exact hf) (by rintro _ ⟨⟩)

/-- A request goes on as the value that it gives does. -/
lemma alongside {f : α → Request β} {v : Except RequestError α} {g : α → Except RequestError β}
    (hm : Reads P m v) (hf : ∀ a, Reads P (f a) (g a)) : Reads P (m >>= f) (v >>= g) := by
  cases v with
  | error e => exact hm.bind (by rintro _ ⟨⟩) (by rintro _ ⟨⟩; rfl)
  | ok a => exact hm.andThen (hf a)

lemma orElseValue {v : Except RequestError α} (value : α) (hm : Reads P m v)
    (hv : Recoverable v) : Reads P (m.orElseValue value) (.ok (v.toOption.getD value)) := by
  intro s hs
  obtain ⟨s', hrun, hs'⟩ := hm s hs
  exact ⟨s', Request.runFrom_orElseValue value hrun hv, hs'⟩

/-- A request for each item gives what it gives for all of them. -/
lemma flatMapM {f : α → Request (List β)} {g : α → List β} {items : List α}
    (h : ∀ a ∈ items, Reads P (f a) (.ok (g a))) :
    Reads P (Request.flatMapM f items) (.ok (items.flatMap g)) := by
  induction items with
  | nil => exact .pure []
  | cons a items ih =>
      have hmore := ih fun x hx => h x (List.mem_cons_of_mem a hx)
      exact .andThen (h a (List.mem_cons_self ..)) (.andThen hmore (.pure _))

lemma mapM {f : α → Request β} {g : α → β} {items : List α}
    (h : ∀ a ∈ items, Reads P (f a) (.ok (g a))) :
    Reads P (items.mapM f) (.ok (items.map g)) := by
  induction items with
  | nil => exact .pure []
  | cons a items ih =>
      have hmore := ih fun x hx => h x (List.mem_cons_of_mem a hx)
      rw [List.mapM_cons]
      exact .andThen (h a (List.mem_cons_self ..)) (.andThen hmore (.pure _))

/-- A request that leaves every store as it is. -/
lemma runFrom_eq {v : Except RequestError α} (s : GrammarStore) (hm : Reads (· = s) m v) :
    m.runFrom ⟨s, .never⟩ = (v, ⟨s, .never⟩) := by
  obtain ⟨s', hrun, rfl⟩ := hm s rfl
  exact hrun

end Reads

/-! ## Requests for the grammars of a document -/

section Applicable

variable {b : Bindings} {d : Document}

lemma runFrom_load (hquiet : b.supply.interruptedAt = none) (r : GrammarReference)
    (s : GrammarStore) : (b.load r).runFrom ⟨s, .never⟩ =
      (.ok (s.load b.supply r).result, ⟨(s.load b.supply r).store, .never⟩) := by
  have hinterrupted : ((s.load b.supply r).asked && decide (b.supply.interruptedAt =
      some r.source.uri)) = false := by simp [hquiet]
  have hrun : (b.load r).runFrom ⟨s, .never⟩ =
      (.ok (s.load b.supply r).result, ⟨(s.load b.supply r).store,
        if (s.load b.supply r).asked &&
        decide (b.supply.interruptedAt = some r.source.uri) then .now
        else .never⟩) := rfl
  rw [hrun, hinterrupted]
  rfl

lemma runFrom_loadAll (hquiet : b.supply.interruptedAt = none) (refs : List GrammarReference)
    (s : GrammarStore) : (b.loadAll refs).runFrom ⟨s, .never⟩ =
      (.ok (s.loadAll b.supply refs).1, ⟨(s.loadAll b.supply refs).2, .never⟩) := by
  rw [Bindings.loadAll]
  induction refs generalizing s with
  | nil => rfl
  | cons r more ih =>
      rw [Request.flatMapM, Request.runFrom_bind, Request.runFrom_bind, Request.runFrom_check]
      dsimp only
      rw [Request.runFrom_bind, runFrom_load hquiet]
      dsimp only
      rw [Request.runFrom_pure]
      dsimp only
      rw [Request.runFrom_bind, ih]
      rfl

lemma runFrom_applicable (hquiet : b.supply.interruptedAt = none) (s : GrammarStore) :
    (b.applicable d).runFrom ⟨s, .never⟩ =
      (.ok (s.loadAll b.supply (d.references b.associations)).1,
        ⟨(s.loadAll b.supply (d.references b.associations)).2, .never⟩) := by
  rw [Bindings.applicable, Request.runFrom_bind, runFrom_loadAll hquiet]
  rfl

/-- Whether a store offers certain grammars to a document. -/
def Bindings.Offers (b : Bindings) (d : Document) (gs : List Grammar) (s : GrammarStore) : Prop :=
  (s.loadAll b.supply (d.references b.associations)).1 = gs

/-- Loading what is offered leaves a store that offers the same. -/
lemma Bindings.Offers.again {gs : List Grammar} {s : GrammarStore} (h : b.Offers d gs s)
    (hd : d.toTree.Nests) :
    b.Offers d gs (s.loadAll b.supply (d.references b.associations)).2 := by
  rw [Offers, GrammarStore.loadAll_again (references_apart hd _)]
  exact h

/-- Loading the grammars of a document gives those that are offered. -/
lemma reads_applicable (hquiet : b.supply.interruptedAt = none) (hd : d.toTree.Nests)
    (gs : List Grammar) : Reads (b.Offers d gs) (b.applicable d) (.ok gs) := by
  intro s hs
  refine ⟨(s.loadAll b.supply (d.references b.associations)).2, ?_, hs.again hd⟩
  rw [runFrom_applicable hquiet, hs]

end Applicable

/-! ## Diagnostics -/

/-- What a validation finds. -/
def Grammar.findings (g : Grammar) (d : Document) : List Diagnostic :=
  match d.root? with
  | none => []
  | some root =>
    match g.declarationOf? d.toTree root with
    | none => d.report [undeclaredViolation g.uri.text root]
    | some decl => (g.visits d.toTree root decl).flatMap fun v => v.diagnostics g d

/-- The diagnostics of a document to which certain grammars apply. -/
def Document.diagnosticsWith (d : Document) (settings : ValidationSettings) (gs : List Grammar) :
    Except RequestError (List Diagnostic) :=
  if !settings.enabled then .ok []
  else if gs.isEmpty then
    (d.noGrammarDiagnostics settings.noGrammar).map (d.faultDiagnostic?.toList ++ ·)
  else .ok (d.faultDiagnostic?.toList ++ gs.flatMap (·.findings d))

section Diagnostics

variable {b : Bindings} {d : Document}

lemma reads_validate {P : GrammarStore → Prop} (g : Grammar) :
    Reads P (g.validate d) (.ok (g.findings d)) := by
  intro s hs
  refine ⟨s, ?_, hs⟩
  cases hroot : d.root? with
  | none =>
      rw [Grammar.validate, Grammar.findings, hroot]
      rfl
  | some root =>
      cases hdecl : g.declarationOf? d.toTree root with
      | none =>
          rw [g.runFrom_validate_undeclared hroot hdecl, Grammar.findings, hroot]
          dsimp only
          rw [hdecl]
      | some decl =>
          rw [g.runFrom_validate hroot hdecl, Grammar.findings, hroot]
          dsimp only
          rw [hdecl]

/-- What a validation gives is what is found. -/
lemma findings_of_runFrom {g : Grammar} {s : GrammarStore} {found : List Diagnostic}
    {after : RequestState} (h : (g.validate d).runFrom ⟨s, .never⟩ = (.ok found, after)) :
    g.findings d = found := by
  rw [(reads_validate g).runFrom_eq s, Prod.mk.injEq, Except.ok.injEq] at h
  exact h.1

/-- **The diagnostics of a document depend on the grammars that the store offers to it, not on what
else it keeps**, and what they leave is what loading these grammars leaves. -/
theorem runFrom_diagnostics (hquiet : b.supply.interruptedAt = none)
    (settings : ValidationSettings) (s : GrammarStore) :
    (b.diagnostics settings d).runFrom ⟨s, .never⟩ =
      (d.diagnosticsWith settings (s.loadAll b.supply (d.references b.associations)).1,
        ⟨if settings.enabled then (s.loadAll b.supply (d.references b.associations)).2 else s,
          .never⟩) := by
  rw [Bindings.diagnostics, Document.diagnosticsWith]
  cases settings.enabled with
  | false => rfl
  | true =>
      simp only [Bool.not_true, Bool.false_eq_true, if_false, if_true]
      rw [Request.runFrom_bind, runFrom_applicable hquiet]
      dsimp only
      generalize s.loadAll b.supply (d.references b.associations) = loaded
      apply Reads.runFrom_eq
      split_ifs
      · refine .bind (.ofExcept _) (fun found hfound => ?_) fun e he => ?_
        · rw [hfound]
          exact .pure _
        · rw [he]
          rfl
      · exact .andThen (.flatMapM fun g _ => reads_validate g) (.pure _)

lemma reads_diagnostics (hquiet : b.supply.interruptedAt = none) (hd : d.toTree.Nests)
    (settings : ValidationSettings) (gs : List Grammar) :
    Reads (b.Offers d gs) (b.diagnostics settings d) (d.diagnosticsWith settings gs) := by
  intro s hs
  refine ⟨_, by rw [runFrom_diagnostics hquiet, hs], ?_⟩
  split_ifs
  · exact hs.again hd
  · exact hs

end Diagnostics

end XmlAdvisor
