import GenericTypes.Descriptor.Basic
import GenericTypes.RawType.Assignable

/-! # How descriptors fit

Whether a value of one type can be used where another is expected, looking at raw types and at the
raw types of their arguments, but no deeper. Arguments may vary with the type or against it. -/

namespace GenericTypes

/-- How a candidate fits an expected type. -/
inductive Fit
  /-- The candidate fits. -/
  | exact
  /-- The candidate would fit if some arguments were exchanged with the expected ones. -/
  | contravariant
  /-- The candidate does not fit. -/
  | incompatible
  deriving DecidableEq, Repr

namespace Fit

/-- The number that stands for a fit. -/
def code : Fit → Int
  | exact => 0
  | contravariant => 1
  | incompatible => -1

/-- Whether a lenient comparison accepts a fit. -/
def isAccepted : Fit → Bool
  | incompatible => false
  | _ => true

/-- The worse one of two fits. -/
def worse : Fit → Fit → Fit
  | incompatible, _ => incompatible
  | _, incompatible => incompatible
  | contravariant, _ => contravariant
  | _, contravariant => contravariant
  | exact, exact => exact

/-- How an argument fits an expected one. -/
def ofArguments (expected actual : RawType) : Fit :=
  if expected.accepts actual then exact
  else if actual.accepts expected then contravariant
  else incompatible

end Fit

namespace Descriptor

/-- How a candidate fits an expected descriptor. -/
def fit (expected candidate : Descriptor) : Fit :=
  if expected.raw.accepts candidate.raw
      && expected.arguments.length == candidate.arguments.length then
    (List.zipWith (fun left right => Fit.ofArguments left.raw right.raw)
      expected.arguments candidate.arguments).foldr Fit.worse .exact
  else .incompatible

/-- Whether an expected descriptor accepts a candidate. -/
def accepts (expected candidate : Descriptor) : Bool :=
  expected.fit candidate == .exact

/-- Whether an expected descriptor accepts a candidate, arguments being allowed to vary against the
type. -/
def acceptsLeniently (expected candidate : Descriptor) : Bool :=
  (expected.fit candidate).isAccepted

end Descriptor

end GenericTypes
