import Mqtt.Codec

/-!
# Receiving a stream

* `drain` takes packet after packet off the front of bytes until that fails.
* A `Receiver` gets the bytes of a stream in chunks. It delivers the packets that are complete,
  keeps the bytes of the last incomplete one, and stops for good at the first real error.
-/

namespace Mqtt

/-- What packets the front of some bytes holds. -/
structure Drained where
  /-- The packets, in order. -/
  packets : List Decoded
  /-- The bytes behind the last packet. -/
  rest : Bytes
  /-- Why these bytes hold no further packet. -/
  stop : Error

/-- Takes packet after packet off the front of the bytes. -/
def drain (limit : Option Int) (s : Bytes) : Drained :=
  match h : decode limit s with
  | .error e => ⟨[], s, e⟩
  | .ok d =>
    have : d.rest.length < s.length := by have := length_rest_of_decode h; omega
    let r := drain limit d.rest
    { r with packets := d :: r.packets }
  termination_by s.length

/-- The receiving end of a stream. -/
structure Receiver where
  /-- The largest size of a packet. -/
  limit : Option Int := none
  /-- The bytes that no packet was made of yet. -/
  buffer : Bytes := []
  /-- Why the receiver has stopped, if it has. -/
  failure? : Option Error := none

namespace Receiver

/-- The receiver after a chunk of the stream, and the packets that the chunk completed. -/
def feed (r : Receiver) (chunk : Bytes) : Receiver × List Decoded :=
  match r.failure? with
  | some _ => (r, [])
  | none =>
    let d := drain r.limit (r.buffer ++ chunk)
    ({ r with
       buffer := d.rest
       failure? := if d.stop = .insufficientData then none else some d.stop },
     d.packets)

/-- The receiver after a list of chunks, and all packets that they completed. -/
def feedAll (r : Receiver) : List Bytes → Receiver × List Decoded
  | [] => (r, [])
  | chunk :: chunks =>
    let (r₁, packets₁) := r.feed chunk
    let (r₂, packets₂) := r₁.feedAll chunks
    (r₂, packets₁ ++ packets₂)

end Receiver

end Mqtt
