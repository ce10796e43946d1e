namespace CallAtlas

inductive Tree where
  | text (content : String)
  | list (items : List Tree)
  | record (fields : List (String × Tree))
  deriving Repr, Inhabited

end CallAtlas
