import PlotMachine.Registry

/-!
# The modules of the library

The names under which the library functions are offered to images.
-/

namespace PlotMachine

/-- Library functions under their qualified names. -/
def libraryNatives (functions : List (String × Intrinsic)) : List Native :=
  functions.map fun (name, fn) => { name, entry := .library fn }

/-- The modules of the library, in the order in which they are registered. -/
def libraryModules : List NativeModule :=
  [ { name := "math"
      description := "Real-valued math functions"
      natives := libraryNatives
        [("math.sqrt", .sqrt), ("math.sin", .sin), ("math.cos", .cos), ("math.abs", .abs),
          ("math.pow", .pow), ("math.floor", .floor), ("math.to_real", .toReal)] },
    { name := "io"
      description := "Standard output"
      natives := libraryNatives [("io.write", .write)] },
    { name := "array"
      description := "Growable arrays"
      natives := libraryNatives
        [("array.new", .newArray), ("array.push", .append), ("array.length", .arrayLength),
          ("array.get", .getItem), ("array.set", .setItem)] },
    { name := "string"
      natives := libraryNatives [("string.concat", .concat), ("string.length", .textLength)] },
    { name := "func"
      description := "Partial application"
      natives := libraryNatives [("func.bind", .bind)] },
    { name := "draw"
      description := "Path drawing helpers"
      natives := libraryNatives [("draw.adjustdash", .adjustDash)] } ]

namespace Registry

/-- Adds modules under their own names, up to the first one that cannot be added. -/
def registerModules (r : Registry) : List NativeModule → Except RegistryError Unit × Registry
  | [] => (.ok (), r)
  | m :: rest =>
    match r.registerModule m.name m with
    | (.ok (), r) => r.registerModules rest
    | (.error e, r) => (.error e, r)

/-- A registry with the library. -/
def standard : Registry := (({} : Registry).registerModules libraryModules).2

end Registry

end PlotMachine
