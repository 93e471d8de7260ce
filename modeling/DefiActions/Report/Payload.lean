import DefiActions.Abi
import DefiActions.Address
import DefiActions.Report.Schema

/-!
# Reports

A report is described by its fields and sent out as the encoding of all of them.
-/

namespace DefiActions.Report

/-! ## Descriptors

A descriptor holds a value for every field of its schema, in order; `null` is a
field left out. Addresses are kept in normal form and blobs as octets, so that
two descriptors of one payload are equal. -/

structure Descriptor where
  kind : Kind
  values : List Value

namespace Descriptor

def normalAddress : Value → Except Failure Value
  | .text s => .ok (.text (Address.normalize s))
  | .bytes _ => throw .wrongType
  | _ => throw .missingMember

/-- The normal form of a field; fields left out stay so. -/
def normalField (f : Field) (v : Value) : Except Failure Value :=
  if v.isNull then .ok .null
  else if f.kind = .address then normalAddress v
  else if f.kind = .bytes then (Blob.ofValue v).map .bytes
  else .ok v

/-- The descriptor of the given fields, each under its name. -/
def make (kind : Kind) (given : Members) : Except Failure Descriptor :=
  let fields := schema kind
  if given.any fun m => !fields.any (·.name = m.1) then throw .wrongType
  else do return ⟨kind, ← fields.mapM fun f => normalField f ((given.get? f.name).getD .null)⟩

def entries (d : Descriptor) : List (Field × Value) := (schema d.kind).zip d.values

def toRecord (d : Descriptor) : Members := d.entries.map fun e => (e.1.name, e.2)

def get (d : Descriptor) (name : String) : Value := (d.toRecord.get? name).getD .null

end Descriptor

/-! ## Payloads

A payload is the encoding of all fields of a report, defaults filled in.
Decoding a payload gives a descriptor with every field set. -/

namespace Descriptor

def resolveField (kind : Kind) (f : Field) (v : Value) : Except Failure Value := do
  let v ←
    if v.isNull then
      match f.default? with
      | some v => pure v
      | none => throw (.missing f.wireName (s!"no default for {kind.wireName} field"))
    else pure v
  match f.kind, v with
  | .word .address, .text s => return .bytes (← Address.toBytes s)
  | _, v => return v

def resolve (d : Descriptor) : Except Failure (List Value) :=
  d.entries.mapM fun e => resolveField d.kind e.1 e.2

end Descriptor

def encode (d : Descriptor) : Except Failure Bytes := do
  Abi.encode (kinds d.kind) (← d.resolve)

def decode (kind : Kind) (data : Bytes) : Except Failure Descriptor := do
  let values ← Abi.decode (kinds kind) data
  Descriptor.make kind (((schema kind).map (·.name)).zip values)

end DefiActions.Report
