/-! # Bytes -/
namespace Switchyard
set_option autoImplicit false

abbrev Bytes := List UInt8

end Switchyard
