import LayeredAnnotations.Numeral

namespace LayeredAnnotations

namespace Json

-- JSON with numbers as they are written and entries in the order given. A string is absent if its
-- escapes do not name characters: there is something to skip over then, but nothing to read.
inductive Tree where
  | null
  | bool (b : Bool)
  | number (x : Numeral)
  | string (s : Option String)
  | array (items : List Tree)
  | object (entries : List (Option String × Tree))

end Json

end LayeredAnnotations
