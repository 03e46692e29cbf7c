import ProductModel.Symbol
import ProductModel.Text.Uppercase

/-!
# Accessors of properties

A type can keep the value of a property itself, with two methods named for the key: `getWidth` and
`setWidth` for the key `width`.
-/

namespace ProductModel.Accessor

/-- The name of the method that reads a property. -/
def getter (key : Symbol) : Symbol := ⟨"get" ++ Text.Uppercase.capitalize key.label⟩

/-- The name of the method that writes a property. -/
def setter (key : Symbol) : Symbol := ⟨"set" ++ Text.Uppercase.capitalize key.label⟩

end ProductModel.Accessor
