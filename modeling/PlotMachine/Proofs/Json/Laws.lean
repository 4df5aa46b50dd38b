import PlotMachine.Proofs.Json.Values

/-!
# The laws of the text of JSON

What image files rely on of how JSON is written and read. Image files are a client of the text layer:
they ask it for the document of a text, for the numbers, texts and values in that document, and for the
text of a value. `Json.TextLaws` says what the answers have to do with each other;
`PlotMachine.Proofs.RoundTrip` uses no other property of them.

The reader and the writer here obey them (`Json.textLaws`). They are the usual ones: a text is escaped
in the standard way, an integer is a word of 64 bits, and the last one of several fields with one key
counts.
-/

namespace PlotMachine.Json

/-- The laws of the text layer. -/
structure TextLaws : Prop where
  /-- What is written for a value is read as the document of that value. -/
  read_render : ∀ v : Json, v.Integral → read v.render = some v.raw
  /-- A text is read back from its escaped form. -/
  text_pieces : ∀ s : String, textOf? (pieces s) = some s
  /-- An integer of 64 bits is read back from its digits. -/
  number_ofInt : ∀ n : Int, -0x8000000000000000 ≤ n → n ≤ maxWord →
    numberValue (.ofInt n) = some (.int n)
  /-- A document denotes values whose integers have 64 bits and whose objects have each key once, in
  ascending order, no deeper than the limit. -/
  fits_value : ∀ (r : Raw) (limit : Nat) (v : Json), r.value? limit = some v → v.Fits limit
  /-- Such a value is denoted by the document that is written for it. -/
  value_raw : ∀ (limit : Nat) (v : Json), v.Fits limit → v.Integral → v.raw.value? limit = some v
  /-- Null is denoted by nothing but itself. -/
  null_value : ∀ (r : Raw) (limit : Nat), r.value? limit = some .null → r = .null

/-- The reader and the writer obey the laws. -/
theorem textLaws : TextLaws where
  read_render _ := Integral.read_render
  text_pieces := textOf?_pieces
  number_ofInt _ := numberValue_ofInt
  fits_value r _ _ := fits_of_value? r
  value_raw _ _ := Fits.value?_raw
  null_value _ _ := eq_null_of_value?

end PlotMachine.Json
