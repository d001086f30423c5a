import Switchyard.Bytes

/-! # Pipes

One direction of a stream in memory. It holds a bounded number of bytes; its writer may end it, and
its reader may go away.
-/
namespace Switchyard.Net
set_option autoImplicit false

structure Pipe where
  capacity : Nat
  content : Bytes
  /-- The writer will write no more. -/
  ended : Bool
  /-- The reader is gone. -/
  abandoned : Bool
deriving DecidableEq, Repr

inductive PipeWrite where
  | wrote (n : Nat)
  | full
  | broken
deriving DecidableEq, Repr

inductive PipeRead where
  | data (data : Bytes)
  | empty
  | ended
deriving DecidableEq, Repr

namespace Pipe

def new (capacity : Nat) : Pipe := { capacity, content := [], ended := false, abandoned := false }

def free (p : Pipe) : Nat := p.capacity - p.content.length

/-- Takes as many of the bytes as there is room for. -/
def write (p : Pipe) (data : Bytes) : PipeWrite × Pipe :=
  if p.ended || p.abandoned then (.broken, p)
  else
    let n := min data.length p.free
    if n = 0 && !data.isEmpty then (.full, p)
    else (.wrote n, { p with content := p.content ++ data.take n })

/-- Gives at most `limit` bytes. -/
def read (p : Pipe) (limit : Nat) : PipeRead × Pipe :=
  if !p.content.isEmpty then
    (.data (p.content.take limit), { p with content := p.content.drop limit })
  else if p.ended then (.ended, p)
  else (.empty, p)

def finish (p : Pipe) : Pipe := { p with ended := true }

def abandon (p : Pipe) : Pipe := { p with abandoned := true, content := [] }

end Pipe
end Switchyard.Net
