set_option autoImplicit false

/-!
# Name hashes

The 64-bit FNV-1a hash of a name's UTF-8 bytes.
-/
namespace SpanWeave

def hashStep (h : UInt64) (byte : UInt8) : UInt64 := (h ^^^ byte.toUInt64) * 0x100000001b3

def nameHash (name : String) : UInt64 :=
  name.toUTF8.toList.foldl hashStep 0xcbf29ce484222325

end SpanWeave
