/-! # Ordered teardown

Components of an application are shut down one after the other, each before the next is asked.
-/
namespace Switchyard.Lifecycle
set_option autoImplicit false

/-- A component that can be shut down. -/
structure Target (σ : Type) where
  description : String
  shutdown : σ → σ

def shutdownAll {σ : Type} (targets : List (Target σ)) (state : σ) : σ :=
  targets.foldl (fun state target => target.shutdown state) state

end Switchyard.Lifecycle
