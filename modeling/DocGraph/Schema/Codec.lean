import DocGraph.Error
import DocGraph.Value.Basic
/-!
# Codecs

A codec takes the place of the type of a field where the field is read or written.  One codec is
known here.  The others belong to the program that uses the schemas: all that is said of them is
that they read and write.
-/

namespace DocGraph

def mismatch (field expected : String) (raw : Json) : Error :=
  .invalidValue field expected raw.kindName

/-- How the values of a field are written and read back, given the name of the field. -/
structure FieldCodec where
  encode (field : String) (value : Value) : Except Error Json
  decode (field : String) (raw : Json) : Except Error Value

def FieldCodec.epochMillis : FieldCodec where
  encode field value :=
    match value with
    | .datetime instant => .ok (Json.ofInt64 (Int64.ofInt instant.millis))
    | value => .error (.invalidValue field "datetime" value.typeName)
  decode field raw :=
    match raw.asInt64?.bind fun millis => Instant.ofMillis? millis.toInt with
    | some instant => .ok (.datetime instant)
    | none => .error (mismatch field "epoch millis" raw)

/-- The codecs that a program brings along.  They are an instance and not an argument, since
whatever reads or writes depends on them. -/
class CustomCodecs where
  codec (number : Nat) : FieldCodec

abbrev CustomCodecs.none : CustomCodecs where
  codec _ :=
    { encode := fun field value => .error (.invalidValue field "nothing" value.typeName)
      decode := fun field raw => .error (mismatch field "nothing" raw) }

namespace Codec

variable [CustomCodecs]

def meaning : Codec → FieldCodec
  | epochMillis => .epochMillis
  | custom number => CustomCodecs.codec number

def encode (codec : Codec) (field : String) (value : Value) : Except Error Json :=
  codec.meaning.encode field value

def decode (codec : Codec) (field : String) (raw : Json) : Except Error Value :=
  codec.meaning.decode field raw

end Codec

end DocGraph
