namespace DeviceClient.Split

/-- The text before the first separator and the text after it. -/
def atFirst (separator : List Char) : List Char → Option (List Char × List Char)
  | [] => none
  | c :: cs =>
    if separator.isPrefixOf (c :: cs) then some ([], (c :: cs).drop separator.length)
    else (atFirst separator cs).map fun (before, after) => (c :: before, after)

/-- Takes one given character off the front of a text. -/
def expect (c : Char) : List Char → Option (List Char)
  | [] => none
  | d :: cs => if d = c then some cs else none

end DeviceClient.Split
