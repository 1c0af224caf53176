import CodeAtlas.Remote.Reply

/-!
# Buffers

The bytes of a string are read into a buffer that is reserved by the length in its header, before
any of them is there. A server may write any length into a header. The largest of them are more than
any buffer can have, and others may be more than there is memory for: asking for such a buffer ends
the program.
-/

namespace CodeAtlas.Remote.Reply

/-- The most bytes that a buffer can have, however much memory there is. -/
def largestBuffer : Nat := Nat.pow 2 63 - 1

/-- A buffer of this size can be reserved where there is so much memory for it. -/
def canReserve (memory size : Nat) : Bool := size ≤ memory && size ≤ largestBuffer

mutual

/-- The sizes of the buffers that are reserved while a reply is read, in their order. -/
def buffersFuel : Nat → Bytes → List Nat
  | 0, _ => []
  | fuel + 1, stream =>
      match readLine stream with
      | (.error _, _) => []
      | (.ok header, rest) =>
          match header.toList with
          | '$' :: body =>
              match lineNumber (String.ofList body) with
              | .ok (.ofNat length) => [bulkSize length]
              | _ => []
          | '*' :: body =>
              match lineNumber (String.ofList body) with
              | .ok (.ofNat count) => itemBuffersFuel fuel count rest
              | _ => []
          | _ => []

/-- The sizes of the buffers for the items of a list, as far as they are read. -/
def itemBuffersFuel : Nat → Nat → Bytes → List Nat
  | _, 0, _ => []
  | 0, _, _ => []
  | fuel + 1, count + 1, stream =>
      buffersFuel fuel stream ++
        match readFuel fuel stream with
        | (.error _, _) => []
        | (.ok _, rest) => itemBuffersFuel fuel count rest

end

def buffers (stream : Bytes) : List Nat := buffersFuel (2 * stream.length + 2) stream

/-- What is read of a stream, or nothing where a buffer cannot be reserved and the program ends. -/
def answer? (memory : Nat) (stream : Bytes) : Option (Read Reply) :=
  if (buffers stream).all (canReserve memory) then some (read stream) else none

/-- The program ends while so many replies are read, one after the other. -/
def endsProgram (memory : Nat) : Nat → Bytes → Bool
  | 0, _ => false
  | count + 1, stream =>
      match answer? memory stream with
      | none => true
      | some (_, rest) => endsProgram memory count rest

end CodeAtlas.Remote.Reply
