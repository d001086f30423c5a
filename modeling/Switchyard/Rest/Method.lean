/-! # REST methods -/
namespace Switchyard.Rest
set_option autoImplicit false

inductive Method where
  | get
  | post
  | put
  | delete
deriving DecidableEq, Repr

namespace Method

def name : Method → String
  | get => "GET"
  | post => "POST"
  | put => "PUT"
  | delete => "DELETE"

def ofName? (name : String) : Option Method :=
  [get, post, put, delete].find? (·.name == name)

theorem ofName?_eq_some_iff (name : String) (method : Method) :
    ofName? name = some method ↔ name = method.name := by
  constructor
  · intro h
    have := List.find?_some h
    simpa using (beq_iff_eq.mp this).symm
  · rintro rfl
    cases method <;> decide

theorem name_injective {a b : Method} (h : a.name = b.name) : a = b := by
  have ha := (ofName?_eq_some_iff a.name a).mpr rfl
  have hb := (ofName?_eq_some_iff b.name b).mpr rfl
  rw [h, hb] at ha
  exact (Option.some.inj ha).symm

end Method
end Switchyard.Rest
