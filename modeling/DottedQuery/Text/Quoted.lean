/-!
# Quoted text

A quoted text stands between two quotes, and a quote inside it is written twice, so it cannot
end the text early. SQL literals are quoted with `'` and unusual names with `"`.
-/

namespace DottedQuery

namespace Text

/-- The characters with every `quote` written twice. -/
def double (quote : Char) : List Char → List Char
  | [] => []
  | c :: cs => if c = quote then quote :: quote :: double quote cs else c :: double quote cs

/-- The text between two quotes, each quote inside written twice. -/
def quoted (quote : Char) (s : String) : String :=
  String.ofList (quote :: (double quote s.toList ++ [quote]))

end Text

end DottedQuery
