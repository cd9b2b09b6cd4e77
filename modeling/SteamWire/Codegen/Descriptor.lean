import SteamWire.Data.Str

/-!
# Descriptor sets and names

What the code generator reads: the parts of a descriptor set that it looks at, as the accessors
give them, and the rules by which names of the schema become names of Rust. Two of these rules
are those of other crates, and are a parameter.
-/

namespace SteamWire.Codegen

open Str

structure EnumValueDescriptorProto where
  name : String
  number : Int32
  deriving DecidableEq, Repr

structure EnumDescriptorProto where
  name : String
  value : List EnumValueDescriptorProto := []
  deriving DecidableEq, Repr

/-- A message of a file. -/
structure DescriptorProto where
  name : String
  deriving DecidableEq, Repr

structure MethodDescriptorProto where
  name : String
  inputType : String
  outputType : String
  deriving DecidableEq, Repr

structure ServiceDescriptorProto where
  name : String
  method : List MethodDescriptorProto := []
  deriving DecidableEq, Repr

structure FileDescriptorProto where
  name : String
  service : List ServiceDescriptorProto := []
  messageType : List DescriptorProto := []
  enumType : List EnumDescriptorProto := []
  deriving DecidableEq, Repr

structure FileDescriptorSet where
  file : List FileDescriptorProto
  deriving DecidableEq, Repr

/-- The rules of other crates: heck's camel case, and the names that `Ident::new` does not panic
on. -/
structure NameRules where
  toUpperCamelCase : String → String
  isIdent : String → Bool

/-- Rules for names in ASCII, of which those not in the table are in camel case already. -/
def NameRules.ofTable (table : List (String × String)) : NameRules where
  toUpperCamelCase s := (table.lookup s).getD s
  isIdent s :=
    match s.toList with
    | [] => false
    | c :: rest => (c.isAlpha || c = '_') && rest.all fun c => c.isAlphanum || c = '_'

variable (rules : NameRules)

def toUpperCamel (s : String) : String :=
  let ident := rules.toUpperCamelCase s
  if ident = "Self" then ident ++ "_" else ident

/-- `char::is_ascii_digit`. -/
def isAsciiDigit (c : Char) : Bool := '0' ≤ c && c ≤ '9'

/-- Drop the name of the enum in front of a variant, unless what is left is no name. -/
def stripEnumPrefix (enumIdent name : String) : String :=
  let stripped := (stripPrefix enumIdent.toList name.toList).getD name.toList
  match stripped.head? with
  | some c => if isAsciiDigit c then name else String.ofList stripped
  | none => name

def prostEnumVariant (enumName variantName : String) : String :=
  stripEnumPrefix (toUpperCamel rules enumName) (toUpperCamel rules variantName)

/-- The last part of a type reference, behind its last dot. -/
def lastPart (reference : String) : String :=
  String.ofList (reference.toList.rtakeWhile (· ≠ '.'))

/-- What stands in front of it: the messages, or the package, that a type is declared in. -/
def outerParts (reference : String) : String :=
  String.ofList (reference.toList.rdropWhile (· ≠ '.')).dropLast

def rustTypeFromProtoRef (reference : String) : String := toUpperCamel rules (lastPart reference)

/-- The structs and enums that prost has generated, with the variants of the enums. -/
structure Symbols where
  structs : List String
  enums : List (String × List String)

namespace Symbols

variable (symbols : Symbols)

def hasStruct (name : String) : Bool := symbols.structs.contains name

def hasEnum (name : String) : Bool := (symbols.enums.lookup name).isSome

def hasVariant (enumName variant : String) : Bool :=
  match symbols.enums.lookup enumName with
  | some variants => variants.contains variant
  | none => false

variable {symbols}

/-- An enum with a variant has been generated. -/
theorem hasEnum_of_hasVariant {enumName variant : String}
    (h : symbols.hasVariant enumName variant) : symbols.hasEnum enumName := by
  rw [hasVariant] at h
  rw [hasEnum]
  cases hlookup : symbols.enums.lookup enumName with
  | none => simp [hlookup] at h
  | some variants => rfl

end Symbols

end SteamWire.Codegen
