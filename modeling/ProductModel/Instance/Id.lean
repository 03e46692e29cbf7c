/-!
# Handles of instances

An instance is referred to by the slot that holds it and by the slot's generation.  A slot that
is freed and filled again has a new generation, so a handle kept past the end of its instance
never names another one.
-/

namespace ProductModel

/-- **A handle of an instance.** -/
structure InstanceId where
  slot : UInt32
  generation : UInt32
  deriving DecidableEq, Repr, Inhabited

namespace InstanceId

/-- The displayed form, such as `#3v0`. -/
def text (id : InstanceId) : String := s!"#{id.slot.toNat}v{id.generation.toNat}"

/-- The handle that has the greatest slot and generation; it stands for "no instance" where a
handle is required. -/
def none : InstanceId := ⟨UInt32.ofNat 4294967295, UInt32.ofNat 4294967295⟩

end InstanceId

end ProductModel
