/-!
# Scalar types

The leaves of every type: truth values, integers of ten widths, two floating-point widths, and byte strings.  Floating
point may be declared but has no encoding, so a plan never writes one.
-/
namespace BencodePlan

inductive IntKind
  | i8 | i16 | i32 | i64 | isize
  | u8 | u16 | u32 | u64 | usize
  deriving DecidableEq, Repr

namespace IntKind

def all : List IntKind :=
  [.i8, .i16, .i32, .i64, .isize, .u8, .u16, .u32, .u64, .usize]

def name : IntKind → String
  | i8 => "i8"
  | i16 => "i16"
  | i32 => "i32"
  | i64 => "i64"
  | isize => "isize"
  | u8 => "u8"
  | u16 => "u16"
  | u32 => "u32"
  | u64 => "u64"
  | usize => "usize"

def isSigned : IntKind → Bool
  | i8 | i16 | i32 | i64 | isize => true
  | u8 | u16 | u32 | u64 | usize => false

def ofName? (name : String) : Option IntKind :=
  all.find? fun k => k.name = name

end IntKind

inductive FloatKind
  | f32
  | f64
  deriving DecidableEq, Repr

inductive ScalarKind
  | bool
  | int (kind : IntKind)
  | float (kind : FloatKind)
  | str
  deriving DecidableEq, Repr

namespace ScalarKind

def name : ScalarKind → String
  | bool => "bool"
  | str => "str"
  | float .f32 => "f32"
  | float .f64 => "f64"
  | int k => k.name

/-- **The scalar type a keyword stands for.** -/
def ofName? (name : String) : Option ScalarKind :=
  if name = "bool" then some .bool
  else if name = "str" then some .str
  else if name = "f32" then some (.float .f32)
  else if name = "f64" then some (.float .f64)
  else (IntKind.ofName? name).map .int

end ScalarKind
end BencodePlan
