import SearchCompiler.Decimal.Reading
import SearchCompiler.Decimal.Style
import SearchCompiler.Json.Record
import SearchCompiler.Text.Blank
import SearchCompiler.Text.Pieces

/-!
# Locations

A circle around a point on the globe, as a filter and in the short form `lat,lon,km` of an operand.
-/

namespace SearchCompiler.Filter

/-- The places within a distance of a point. -/
structure Circle where
  latitude : Float
  longitude : Float
  kilometers : Float
deriving Inhabited

/-- A circle that a location field has to lie in. -/
structure LocationFilter where
  field : String
  circle : Circle
deriving Inhabited

namespace Circle

/-- The filter for the places of a backend field within a circle. -/
def query (name : String) (c : Circle) : String :=
  let number := Decimal.Style.plain.double
  "\x7b!geofilt sfield=" ++ name ++ " pt=" ++ number c.latitude ++ "," ++ number c.longitude ++
    " d=" ++ number c.kilometers ++ "\x7d"

/-- Reads the short form: three numbers between commas, with blanks around them. -/
def ofText? (text : String) : Option Circle :=
  match Text.cutAt ',' text.toList with
  | [lat, lon, km] => do
    let number := fun part => Decimal.read? (Text.trim part)
    return ⟨← number lat, ← number lon, ← number km⟩
  | _ => none

end Circle

namespace LocationFilter

def ofJson? (value : Json) : Option LocationFilter := do
  let r ← value.record? ["field", "lat", "lon", "radius_km"]
  return ⟨← r.required "field" Json.text?, ← r.required "lat" Json.real?,
    ← r.required "lon" Json.real?, ← r.required "radius_km" Json.real?⟩

def toJson (f : LocationFilter) : Json :=
  .object [("field", .text f.field), ("lat", .real f.circle.latitude),
    ("lon", .real f.circle.longitude), ("radius_km", .real f.circle.kilometers)]

end LocationFilter

end SearchCompiler.Filter
