import SelfDual.Error
/-!
**Devices of the device backend.**

Main definitions:

* `Device` — a device that this machine has;
* `Device.resolve` — the device that a setting names.
-/

set_option autoImplicit false

namespace SelfDual

/-- A device that this machine has. -/
inductive Device where
  | cpu
  deriving DecidableEq, Repr

namespace Device

/-- The name of a device. -/
def name : Device → String
  | cpu => "cpu"

/-- The device that a setting names.  The other kind of device has a name but is not here. -/
def resolve (v : Value) : Except Error Device :=
  match v.string? with
  | some "cpu" => .ok cpu
  | some "cuda" => .error .missingDevice
  | _ => .error (.unknownDevice v)

end Device

end SelfDual
