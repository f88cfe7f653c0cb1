import Colloquy.Proofs.Json.Containers

/-!
# Written values

The bytes of a JSON value, said part by part, and that the compact text of the value is these bytes
(`encode_render`).
-/

set_option autoImplicit false

namespace Colloquy.Json

mutual

/-- The bytes of the compact text of a value. -/
def Value.bytes : Value → Bytes
  | .null => 0x6e :: nullTail
  | .bool true => 0x74 :: trueTail
  | .bool false => 0x66 :: falseTail
  | .number n => Utf8.encode n.text
  | .text t => quoted t
  | .list items => Ascii.openBracket :: (separated true (itemBytes items) ++ [Ascii.closeBracket])
  | .object members =>
    Ascii.openBrace :: (separated true (allMemberBytes members) ++ [Ascii.closeBrace])

/-- The bytes of each item of a list. -/
def itemBytes : List Value → List Bytes
  | [] => []
  | item :: items => item.bytes :: itemBytes items

/-- The bytes of each member of an object. -/
def allMemberBytes : List (String × Value) → List Bytes
  | [] => []
  | (name, value) :: members => memberBytes name value.bytes :: allMemberBytes members

end

/-- The bytes of items, one by one. -/
theorem itemBytes_eq_map (items : List Value) : itemBytes items = items.map Value.bytes := by
  induction items with
  | nil => rfl
  | cons item items ih => exact congrArg (item.bytes :: ·) ih

/-- The bytes of members, one by one. -/
theorem allMemberBytes_eq_map (members : List (String × Value)) :
    allMemberBytes members = members.map fun m => memberBytes m.1 m.2.bytes := by
  induction members with
  | nil => rfl
  | cons m members ih => exact congrArg (memberBytes m.1 m.2.bytes :: ·) ih

/-- The byte of an ASCII character that is put behind a text. -/
theorem encode_push_ascii (c : Char) (b : UInt8) (text : String)
    (hc : String.utf8EncodeChar c = [b]) :
    Utf8.encode (text.push c) = Utf8.encode text ++ [b] := by
  rw [Utf8.encode_push, hc]

/-- A part of a list or an object stands behind a comma unless it is the first. -/
theorem encode_separator (first : Bool) (out : String) :
    Utf8.encode (if first then out else out.push ',') =
      Utf8.encode out ++ (if first then [] else [Ascii.comma]) := by
  cases first with
  | true => simp
  | false => exact encode_push_ascii ',' Ascii.comma out (by decide)

mutual

/-- What is appended for a value are its bytes. -/
theorem encode_write (out : String) : (value : Value) →
    Utf8.encode (Value.write out value) = Utf8.encode out ++ value.bytes
  | .null => Utf8.encode_append out "null"
  | .bool true => Utf8.encode_append out "true"
  | .bool false => Utf8.encode_append out "false"
  | .number n => Utf8.encode_append out n.text
  | .text t => encode_writeText out t
  | .list items => by
    have hopen := encode_push_ascii '[' Ascii.openBracket out (by decide)
    have hitems := encode_writeItems (out.push '[') true items
    show Utf8.encode ((Value.writeItems (out.push '[') true items).push ']') = _
    rw [encode_push_ascii ']' Ascii.closeBracket _ (by decide), hitems, hopen]
    simp [Value.bytes]
  | .object members => by
    have hopen := encode_push_ascii '\x7b' Ascii.openBrace out (by decide)
    have hmembers := encode_writeMembers (out.push '\x7b') true members
    show Utf8.encode ((Value.writeMembers (out.push '\x7b') true members).push '\x7d') = _
    rw [encode_push_ascii '\x7d' Ascii.closeBrace _ (by decide), hmembers, hopen]
    simp [Value.bytes]

/-- What is appended for the items of a list. -/
theorem encode_writeItems (out : String) (first : Bool) : (items : List Value) →
    Utf8.encode (Value.writeItems out first items) =
      Utf8.encode out ++ separated first (itemBytes items)
  | [] => by simp [Value.writeItems, itemBytes, separated]
  | item :: items => by
    have hitem := encode_write (if first then out else out.push ',') item
    have hitems := encode_writeItems
      (Value.write (if first then out else out.push ',') item) false items
    rw [hitem, encode_separator] at hitems
    simpa [Value.writeItems, itemBytes, separated] using hitems

/-- What is appended for the members of an object. -/
theorem encode_writeMembers (out : String) (first : Bool) : (members : List (String × Value)) →
    Utf8.encode (Value.writeMembers out first members) =
      Utf8.encode out ++ separated first (allMemberBytes members)
  | [] => by simp [Value.writeMembers, allMemberBytes, separated]
  | (name, value) :: members => by
    have hvalue := encode_write
      ((Value.writeText (if first then out else out.push ',') name).push ':') value
    have hmembers := encode_writeMembers
      (Value.write ((Value.writeText (if first then out else out.push ',') name).push ':') value)
      false members
    rw [hvalue, encode_push_ascii ':' Ascii.colon _ (by decide), encode_writeText,
      encode_separator] at hmembers
    simpa [Value.writeMembers, allMemberBytes, separated, memberBytes] using hmembers

end

/-- The compact text of a value consists of its bytes. -/
theorem encode_render (value : Value) : Utf8.encode value.render = value.bytes := by
  have hempty : Utf8.encode "" = [] := by decide
  unfold Value.render
  rw [encode_write, hempty, List.nil_append]

end Colloquy.Json
