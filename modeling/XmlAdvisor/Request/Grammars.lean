import XmlAdvisor.Request.Basic

/-!
# The grammars that apply to a document

A request goes through the references of a document in order and keeps the grammars that can be had;
those that cannot are passed over.  It looks for its cancellation before each reference and once
more at the end.
-/

namespace XmlAdvisor

/-- What documents can be bound to. -/
structure Bindings where
  supply : Supply
  associations : List Association := []

namespace Bindings

/-- The grammar that a reference leads to. -/
def load (b : Bindings) (r : GrammarReference) : Request (Except GrammarError Grammar) := do
  let s ← get
  let loading := s.store.load b.supply r
  let interrupted := loading.asked && b.supply.interruptedAt = some r.source.uri
  set { s with
    store := loading.store
    cancellation := if interrupted then .now else s.cancellation }
  return loading.result

/-- The grammars of references, without those that cannot be had. -/
def loadAll (b : Bindings) (refs : List GrammarReference) : Request (List Grammar) :=
  Request.flatMapM (fun r => do
    Request.check
    return (← b.load r).toOption.toList) refs

/-- The grammars that a document is bound to. -/
def applicable (b : Bindings) (d : Document) : Request (List Grammar) := do
  let grammars ← b.loadAll (d.references b.associations)
  Request.check
  return grammars

/-- The grammars that a document is bound to and that declare one of its elements. -/
def applicableFor (b : Bindings) (d : Document) (e : ElementNode) : Request (List Grammar) := do
  let grammars ← b.applicable d
  return grammars.filter fun g => (g.declarationOf? d.toTree e).isSome

end Bindings

end XmlAdvisor
