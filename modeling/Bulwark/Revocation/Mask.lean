/-!
# Masked tokens

A token is a secret.  Logs and audit events show its mask: nothing of a token below twelve
characters, the first and last two below twenty-four, the first and last four from there on.  So a
mask never shows more than a third of the token, and of its length it tells only which of the three
classes it falls into.
-/

namespace Bulwark

/-- How many characters a mask shows at each end of a token of `n` characters. -/
def shownAtEachEnd (n : Nat) : Nat := if n < 12 then 0 else if n < 24 then 2 else 4

/-- The mask of a token. -/
def maskToken (token : String) : String :=
  let cs := token.toList
  let shown := shownAtEachEnd cs.length
  if shown = 0 then "***"
  else String.ofList (cs.take shown ++ "...".toList ++ cs.drop (cs.length - shown))

end Bulwark
