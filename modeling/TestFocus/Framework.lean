namespace TestFocus

-- Which functions are tests, which calls are assertions, which functions are never looked into, and
-- which arguments of assertions are not followed.
structure Framework where
  isTest : String → Bool
  isAssertion : String → Bool
  isExcluded : String → Bool := fun _ => false
  isAssertionType : String → Bool := fun _ => false

-- Tests and assertions given by their whole names.
def Framework.ofNames (tests assertions : List String) : Framework :=
  { isTest := tests.contains, isAssertion := assertions.contains }

end TestFocus
