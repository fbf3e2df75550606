/-!
What a built program tells about itself: its version, the revision it was built from, and when.
-/
namespace LineRepl

structure Release where
  version : String
  commit : String
  built : String

namespace Release

def current : Release := ⟨"0.1.5", "0123456789ab", "Thu, 01 Jan 1970 00:00:00 GMT"⟩

/-- The line under the title of the banner. -/
def metadata (r : Release) : String := s!"v{r.version} {r.commit} (built {r.built})"

/-- The answer to a request for the long version. -/
def longVersion (r : Release) : String := s!"{r.version}\ncommit: {r.commit}\nbuilt: {r.built}"

/-- The end of the help for the command line. -/
def helpTrailer (r : Release) : String :=
  s!"Build metadata:\n  commit: {r.commit}\n  built: {r.built}"

end Release
end LineRepl
