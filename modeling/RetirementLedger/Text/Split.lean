namespace RetirementLedger.Text

def splitAt (separator : Char) : List Char → List (List Char)
  | [] => [[]]
  | c :: rest =>
    if c == separator then [] :: splitAt separator rest
    else
      match splitAt separator rest with
      | [] => [[c]]
      | first :: others => (c :: first) :: others

end RetirementLedger.Text
