/-! # The front of a text -/

namespace RadiusDictionary.Text

/-- Whether a text starts with another. -/
def startsWith (text front : String) : Bool := front.toList.isPrefixOf text.toList

/-- What follows `front` in a text that starts with it. -/
def after? (front text : String) : Option String :=
  (front.toList.isPrefixOf? text.toList).map .ofList

end RadiusDictionary.Text
