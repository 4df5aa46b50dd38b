/-!
# Native functions

A native is a function the host supplies. Values only refer to natives: what a native does is
looked up when it is called, so that values stay plain data. The natives of the library are
enumerated as `Intrinsic`; any other native is known by a key that the host chose for it.
-/

namespace PlotMachine

/-- The functions of the native library. -/
inductive Intrinsic where
  | sqrt | sin | cos | abs | pow | floor | toReal
  | write
  | newArray | append | arrayLength | getItem | setItem
  | concat | textLength
  | bind
  | adjustDash
  deriving DecidableEq, Repr, Inhabited

/-- What a native runs: a library function, or the host function with a given key. -/
inductive EntryPoint where
  | library (fn : Intrinsic)
  | host (key : String)
  deriving DecidableEq, Repr, Inhabited

/-- A native function under the name it is registered by. -/
structure Native where
  name : String
  entry : EntryPoint
  deriving DecidableEq, Repr, Inhabited

/-- Two natives are the same function when they run the same thing, whatever they are called. -/
def Native.sameFunction (a b : Native) : Bool :=
  a.entry == b.entry

end PlotMachine
