/-!
# UTF-8

Reports arrive as bytes. `decode` reads them as UTF-8 and, when they are not, names the place where
the longest readable start ends. `decodeLossy` never fails: each longest start of a character that
breaks off becomes one replacement character, and so does every byte that can start none.
-/

set_option autoImplicit false

namespace LintGateway.Text

/-- Reads characters from position `i` as long as they are well formed: the characters, after
those already `read`, and the position where reading stopped. -/
def readFrom (bytes : ByteArray) (i : Nat) (read : Array Char) : Array Char × Nat :=
  match _h : bytes.utf8DecodeChar? i with
  | some c => readFrom bytes (i + c.utf8Size) (read.push c)
  | none => (read, i)
termination_by bytes.size - i
decreasing_by
  have hi :=
    ByteArray.lt_size_of_isSome_utf8DecodeChar? (Option.isSome_of_mem (Option.mem_def.2 _h))
  have hc := c.utf8Size_pos
  omega

/-- The text that a byte string is the UTF-8 form of, or the length of its longest start that is the
UTF-8 form of some text. -/
def decode (bytes : ByteArray) : Except Nat String :=
  match readFrom bytes 0 #[] with
  | (cs, stop) => if stop = bytes.size then .ok (String.ofList cs.toList) else .error stop

/-- Whether the byte at position `i` exists and lies between `low` and `high`. -/
def byteWithin (bytes : ByteArray) (i : Nat) (low high : UInt8) : Bool :=
  match bytes[i]? with
  | some b => low ≤ b && b ≤ high
  | none => false

/-- The range of second bytes that a first byte of a three-byte or four-byte character admits. -/
def secondByteRange (first : UInt8) : UInt8 × UInt8 :=
  if first = 0xe0 then (0xa0, 0xbf)
  else if first = 0xed then (0x80, 0x9f)
  else if first = 0xf0 then (0x90, 0xbf)
  else if first = 0xf4 then (0x80, 0x8f)
  else (0x80, 0xbf)

/-- How many bytes from position `i`, where no character is well formed, make the longest start of
one; a byte that starts none counts alone. -/
def brokenLength (bytes : ByteArray) (i : Nat) : Nat :=
  match bytes[i]? with
  | none => 1
  | some first =>
    let second := secondByteRange first
    if first < 0xe0 || 0xf4 < first then 1
    else if !byteWithin bytes (i + 1) second.1 second.2 then 1
    else if first < 0xf0 then 2
    else if byteWithin bytes (i + 2) 0x80 0xbf then 3 else 2

/-- What is broken takes at least one byte. -/
theorem brokenLength_pos (bytes : ByteArray) (i : Nat) : 0 < brokenLength bytes i := by
  unfold brokenLength
  split
  · exact Nat.one_pos
  · dsimp only
    repeat' split
    all_goals omega

/-- Reads characters from position `i` to the end, a replacement character for each broken one. -/
def readLossyFrom (bytes : ByteArray) (i : Nat) (read : Array Char) : Array Char :=
  if _hi : i < bytes.size then
    match bytes.utf8DecodeChar? i with
    | some c => readLossyFrom bytes (i + c.utf8Size) (read.push c)
    | none => readLossyFrom bytes (i + brokenLength bytes i) (read.push '\ufffd')
  else read
termination_by bytes.size - i
decreasing_by
  · have hc := c.utf8Size_pos
    omega
  · have hb := brokenLength_pos bytes i
    omega

/-- The text of a byte string, with U+FFFD wherever it is not UTF-8. -/
def decodeLossy (bytes : ByteArray) : String :=
  String.ofList (readLossyFrom bytes 0 #[]).toList

end LintGateway.Text
