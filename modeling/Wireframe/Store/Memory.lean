import Std.Data.ExtTreeMap.Basic
import Std.Data.ExtTreeMap.Lemmas
import Wireframe.Store

/-!
# Stores in memory

The store that is nothing but a map from identifiers to texts.
-/

namespace Wireframe

/-- A store in memory. -/
structure MemoryStore where
  /-- The texts by identifier. -/
  documents : Std.ExtTreeMap String String

namespace MemoryStore

/-- The store with nothing in it. -/
def empty : MemoryStore := ⟨∅⟩

/-- Keeps a text under an identifier. -/
def save (store : MemoryStore) (id content : String) : Except StoreError Unit × MemoryStore :=
  match Store.checkId id with
  | .error e => (.error e, store)
  | .ok () => (.ok (), ⟨store.documents.insert id content⟩)

/-- The text kept under an identifier. -/
def load (store : MemoryStore) (id : String) : Except StoreError String :=
  match Store.checkId id with
  | .error e => .error e
  | .ok () =>
    match store.documents[id]? with
    | some content => .ok content
    | none => .error (.notFound id)

/-- The identifiers in use, in increasing order. -/
def list (store : MemoryStore) : List String := store.documents.keys

/-- Answers a request. -/
def answer (store : MemoryStore) : Store.Request → Except StoreError Store.Reply × MemoryStore
  | .save id content =>
    match store.save id content with
    | (.ok (), store) => (.ok .saved, store)
    | (.error e, store) => (.error e, store)
  | .load id => ((store.load id).map .content, store)
  | .list => (.ok (.ids store.list), store)

end MemoryStore

end Wireframe
