import TableFeed.DataType

/-!
A value together with its type: the form values have where the type is known only at run time,
as in keys, attributes and the writes of a row.
-/

namespace TableFeed

structure Value where
  type : DataType
  payload : type.Carrier

namespace Value

instance : DecidableEq Value := fun ⟨t, a⟩ ⟨u, b⟩ =>
  if h : t = u then
    if hp : h ▸ a = b then isTrue (by subst h; subst hp; rfl)
    else isFalse fun e => hp (by cases e; rfl)
  else isFalse fun e => h (by cases e; rfl)

def absent (t : DataType) : Value := ⟨t, t.absent⟩

instance : Inhabited Value := ⟨absent .bool⟩

def isAbsent (v : Value) : Bool := v = absent v.type

/-- The value as one of type `t`, if it is one. -/
def as? (v : Value) (t : DataType) : Option t.Carrier :=
  if h : v.type = t then some (h ▸ v.payload) else none

@[simp] theorem as?_mk (t : DataType) (a : t.Carrier) : (Value.mk t a).as? t = some a := by
  simp [as?]

/-- The values of a list, each once. -/
def distinct (vs : List Value) : List Value := vs.eraseDups

end Value

end TableFeed
