import Patchbay.Program
import Patchbay.Property

/-!
# The store

The values of all widgets by id, and who watches which id. An entry appears with its first write
and stays.
-/

namespace Patchbay

/-- Who watches an id: a widget, which draws itself anew, or a function that is known by name. -/
inductive Observer where
  | view (widget : Nat)
  | custom (name : String) (react : String → Value → Program)

def Observer.same : Observer → Observer → Bool
  | .view a, .view b => a == b
  | .custom a _, .custom b _ => a == b
  | _, _ => false

structure Subscription where
  id : String
  observer : Observer

structure Store where
  values : Entries String Value := []
  observers : Entries String (List Observer) := []

namespace Store

/-- The value of a widget, null if it was never written. -/
def get (store : Store) (id : String) : Value :=
  (Entries.get? id store.values).getD .null

def getProperty (store : Store) (id : String) (name : Option String) : Value :=
  (store.get id).property name

def set (store : Store) (id : String) (value : Value) : Store :=
  { store with values := Entries.put id value store.values }

def setProperty (store : Store) (id name : String) (value : Value) : Store :=
  store.set id ((store.get id).withProperty name value)

/-- The observers of an id, in the order of their subscriptions. -/
def observersOf (store : Store) (id : String) : List Observer :=
  (Entries.get? id store.observers).getD []

/-- Adds an observer behind the others of the id. -/
def subscribe (store : Store) (s : Subscription) : Store :=
  let observers := store.observersOf s.id ++ [s.observer]
  { store with observers := Entries.put s.id observers store.observers }

/-- Removes the first observer that is the same. -/
def removeFirst (observer : Observer) : List Observer → List Observer
  | [] => []
  | o :: rest => if o.same observer then rest else o :: removeFirst observer rest

/-- Ends a subscription: the first one left of the same observer on the same id. -/
def unsubscribe (store : Store) (s : Subscription) : Store :=
  let observers := removeFirst s.observer (store.observersOf s.id)
  { store with observers := Entries.put s.id observers store.observers }

def snapshot (store : Store) : Value :=
  .record store.values

theorem get_set_self (store : Store) (id : String) (value : Value) :
    (store.set id value).get id = value := by
  simp [get, set, Entries.get?_put_self]

theorem get_set_of_ne (store : Store) {id other : String} (ne : other ≠ id) (value : Value) :
    (store.set id value).get other = store.get other := by
  simp [get, set, Entries.get?_put_of_ne ne]

end Store
end Patchbay
