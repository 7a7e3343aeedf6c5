import Mqtt.Property.Table
import Mqtt.Wire.Text
import Mqtt.Wire.VarInt

/-!
# Property blocks

`Properties` is what a carrier stores: a table of properties and the list of its user properties.
On the wire it is a block: the length of the block as a variable byte integer, then the entries,
each an identifier and a value. The user properties are written last.

* `Properties.emit c` writes the block of a carrier `c` and `Properties.read c` reads one. Both
  refuse what `c` may not carry, a repetition that `c` does not allow, and values out of range.
* `ValueFormat.emit` and `ValueFormat.read` are the writers and readers of single values.
-/

namespace Mqtt

/-! ### Values -/

namespace ValueFormat

/-- A value in this format; a value of another type has no form in it. -/
def emit (f : ValueFormat) (s : Scalar) : Emission :=
  match f, s.number?, s with
  | fixed size, some n, _ => Integer.emit size n
  | varInt, some n, _ => VarInt.emit n
  | text, _, .text t => t.emit
  | binary, _, .binary bs => Binary.emit bs
  | textPair, _, .pair k v => TextPair.emit (k, v)
  | _, _, _ => .fail .wrongType

/-- Takes a value in this format. -/
def read : ValueFormat → Reader Scalar
  | fixed size => do return .number (← Integer.read size)
  | varInt => do return .number (← VarInt.read)
  | text => do return .text (← Text.read)
  | binary => do return .binary (← Binary.read)
  | textPair => do
    let (k, v) ← TextPair.read
    return .pair k v

/-- A value may take no bytes: an integer of no bytes is one. -/
theorem consumes_read (f : ValueFormat) : f.read.Consumes 0 := by
  match f with
  | fixed size =>
    exact ((Integer.consumes_read size).bind fun _ => Reader.consumes_pure _).mono (Nat.zero_le _)
  | varInt =>
    exact (VarInt.consumes_read.bind fun _ => Reader.consumes_pure _).mono (Nat.zero_le _)
  | text => exact (Text.consumes_read.bind fun _ => Reader.consumes_pure _).mono (Nat.zero_le _)
  | binary => exact (Binary.consumes_read.bind fun _ => Reader.consumes_pure _).mono (Nat.zero_le _)
  | textPair =>
    exact (TextPair.consumes_read.bind fun _ => Reader.consumes_pure _).mono (Nat.zero_le _)

end ValueFormat

/-! ### Kinds -/

namespace PropertyKind

/-- The kind with an identifier. -/
def ofIdentifier (n : Int) : Except Error PropertyKind :=
  match ofIdentifier? n with
  | some k => .ok k
  | none => .error (.unknownProperty n)

/-- Fails for a value out of the range of this kind. -/
def check (k : PropertyKind) (v : PropertyValue) : Except Error Unit :=
  if k.isBoolean ∧ v.number? ≠ some 0 ∧ v.number? ≠ some 1 then .error (.notBoolean k v)
  else if k.isNonZero ∧ v.number? = some 0 then .error (.zeroProperty k)
  else .ok ()

/-- An entry of a block: the identifier and, if it is in range, the value. -/
def emitEntry (k : PropertyKind) (s : Scalar) : Emission :=
  match k.check (.one s) with
  | .error e => .fail e
  | .ok () => VarInt.emit k.identifier ++ k.format.emit s

end PropertyKind

namespace Carrier

/-- The kind with an identifier, if the carrier may carry it. -/
def kindOf (c : Carrier) (identifier : Int) : Except Error PropertyKind := do
  let k ← PropertyKind.ofIdentifier identifier
  if c.allows k then return k else throw (.unsupportedProperty k c)

/-- Takes an entry of a block. -/
def readEntry (c : Carrier) : Reader (PropertyKind × Scalar) := do
  let identifier ← VarInt.read
  let k ← c.kindOf identifier
  let s ← k.format.read
  k.check (.one s)
  return (k, s)

/-- An entry takes at least one byte, that of its identifier. -/
theorem consumes_readEntry (c : Carrier) : c.readEntry.Consumes 1 := by
  have h : c.readEntry.Consumes (1 + (0 + (0 + (0 + 0)))) :=
    VarInt.consumes_read.bind fun _ => (Reader.consumes_lift _).bind fun k =>
      (ValueFormat.consumes_read _).bind fun _ => (Reader.consumes_lift _).bind fun _ =>
        Reader.consumes_pure _
  exact h

/-- All values of a kind, if the carrier may carry them. -/
def emitValue (c : Carrier) (k : PropertyKind) (v : PropertyValue) : Emission :=
  if !c.allows k then .fail (.unsupportedProperty k c)
  else if 1 < v.scalars.length && !c.repeats k then .fail (.duplicateProperty k c)
  else .concat k.emitEntry v.scalars

/-- The user properties, if there are any and the carrier may carry them. -/
def emitUser (c : Carrier) (user : List (Text × Text)) : Emission :=
  if user.isEmpty then .done []
  else if !c.allows .userProperty then .fail (.unsupportedProperty .userProperty c)
  else .concat (fun p => PropertyKind.userProperty.emitEntry (.pair p.1 p.2)) user

end Carrier

/-! ### Blocks -/

/-- What a carrier stores: its properties, and its user properties apart. -/
structure Properties where
  table : PropertyTable := ∅
  user : List (Text × Text) := []
  deriving DecidableEq

namespace Properties

/-- The user properties of a mapping. A key that comes again keeps its place and takes the new
    value. -/
def ofMapping (us : List (Text × Text)) : List (Text × Text) :=
  us.foldl (fun seen u =>
    if seen.any (·.1 == u.1) then seen.map fun v => if v.1 = u.1 then u else v
    else seen ++ [u]) []

/-- Whether nothing is stored. -/
def isEmpty (p : Properties) : Bool := p.table.isEmpty && p.user.isEmpty

/-- Whether the same is stored; the order of the table does not count, that of the user properties
    does. -/
def same (p q : Properties) : Bool := p.table.same q.table && p.user == q.user

/-- The properties in the form in which a packet keeps them. -/
def listed (p : Properties) : Properties := { p with table := p.table.listed }

/-- The entries of the block of a carrier. -/
def emitEntries (c : Carrier) (p : Properties) : Emission :=
  .concat (fun e => c.emitValue e.1 e.2) p.table.entries ++ c.emitUser p.user

/-- The block of a carrier. -/
def emit (c : Carrier) (p : Properties) : Emission :=
  (p.emitEntries c).headed fun length => VarInt.emit length

/-- Stores what an entry of a block says. -/
def add (c : Carrier) (p : Properties) (k : PropertyKind) (s : Scalar) : Except Error Properties :=
  if k = .userProperty then
    .ok { p with user := p.user ++ s.pair?.toList }
  else if p.table.contains k && !c.repeats k then
    .error (.duplicateProperty k c)
  else if k.isListed then
    .ok { p with table := p.table.push k s }
  else
    .ok { p with table := p.table.insert k (.one s) }

/-- Stores what the entries say that the bytes hold. -/
def addEntries (c : Carrier) (p : Properties) : Bytes → Except Error Properties
  | [] => .ok p
  | b :: s =>
    match h : c.readEntry (b :: s) with
    | .error e => .error e
    | .ok ((k, v), t) =>
      match p.add c k v with
      | .error e => .error e
      | .ok q =>
        have : t.length < s.length + 1 := c.consumes_readEntry h
        addEntries c q t
  termination_by s => s.length

/-- The properties in the bytes of a block. An entry that needs more bytes than the block has is an
    error of the block. -/
def ofBlock (c : Carrier) (s : Bytes) : Except Error Properties :=
  (addEntries c {} s).mapError fun e => if e = .insufficientData then .propertyOverrun c else e

/-- Takes the next `length` bytes for a block. -/
def takeBlock (c : Carrier) (length : Nat) : Reader Bytes := fun s =>
  let front := s.take length
  if front.length < length then .error (.blockTooLong length c s.length)
  else .ok (front, s.drop length)

/-- Takes the block of a carrier. -/
def read (c : Carrier) : Reader Properties := do
  let length ← VarInt.read
  let block ← takeBlock c length
  ofBlock c block

/-- A block takes the bytes it announces. -/
theorem consumes_takeBlock (c : Carrier) (length : Nat) : (takeBlock c length).Consumes length := by
  intro s a t h
  unfold takeBlock at h
  simp only [List.length_take] at h
  split at h
  · cases h
  · cases h
    simp only [List.length_drop]
    omega

/-- A block takes at least the byte of its length. -/
theorem consumes_read (c : Carrier) : (read c).Consumes 1 :=
  VarInt.consumes_read.bind fun _ =>
    ((consumes_takeBlock c _).bind fun _ => Reader.consumes_lift _).mono (Nat.zero_le _)

end Properties

end Mqtt
