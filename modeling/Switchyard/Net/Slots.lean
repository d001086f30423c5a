/-! # Slots

Connections and pieces of work are bounded by counted slots. There is a greatest number of them, and
asking for more is no refusal but a breakdown of whoever asks.
-/
namespace Switchyard.Net
set_option autoImplicit false

namespace Slots

/-- An eighth of the words of 64 bits. -/
def limit : Nat := 2305843009213693951

def fit (count : Nat) : Bool := count ≤ limit

def overflow : String :=
  s!"a semaphore may not have more than MAX_PERMITS permits ({limit})"

end Slots
end Switchyard.Net
