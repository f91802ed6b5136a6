namespace Campaign.Text

def unlines (lines : List String) : String := String.join (lines.map (· ++ "\n"))

end Campaign.Text
