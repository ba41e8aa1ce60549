import SpanWeave.Pattern.Match
import SpanWeave.Pattern.Reader

set_option autoImplicit false

/-!
# Languages of patterns

A language of patterns says which texts compile and which names a compiled text matches. Filters ask
for nothing else of patterns and are made over any such language; the program runs with the patterns
of this library.
-/
namespace SpanWeave

structure PatternLanguage where
  Compiled : Type
  compile? : String → Option Compiled
  isMatch : Compiled → String → Bool

def Pattern.language : PatternLanguage where
  Compiled := Pattern
  compile? := Pattern.parse?
  isMatch := Pattern.matchesIn

end SpanWeave
