import Medley.Store.Basic

/-!
# One of two stores

A store that is of one of two types, for programs that learn only at run time where they keep
things.
-/

namespace Medley

variable {σ τ : Type}

/-- Let a store do something, and see the store afterwards as another one. -/
def Storing.within (wrap : σ → τ) (store : σ) (action : Storing σ Unit) : Except Error Unit × τ :=
  let (result, store) := action.run store
  (result, wrap store)

/-- Let whichever store it is do something. -/
def Storing.either (left : Storing σ Unit) (right : Storing τ Unit) : Storing (σ ⊕ τ) Unit :=
  fun store =>
    match store with
    | .inl store => left.within .inl store
    | .inr store => right.within .inr store

instance [RecordStore σ] [RecordStore τ] : RecordStore (σ ⊕ τ) where
  name := Sum.elim RecordStore.name RecordStore.name
  isPersistent := Sum.elim RecordStore.isPersistent RecordStore.isPersistent
  list := Sum.elim RecordStore.list RecordStore.list
  get := Sum.elim RecordStore.get RecordStore.get
  set address record := .either (RecordStore.set address record) (RecordStore.set address record)
  remove address := .either (RecordStore.remove address) (RecordStore.remove address)
  getActive := Sum.elim RecordStore.getActive RecordStore.getActive
  setActive name := .either (RecordStore.setActive name) (RecordStore.setActive name)

end Medley
