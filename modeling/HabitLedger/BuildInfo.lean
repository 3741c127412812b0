/-!
What is known about the program itself.
-/

namespace HabitLedger

structure BuildInfo where
  version : String
  revision : String
  state : String
  time : String
  target : String
  profile : String
  compiler : String

namespace BuildInfo

def text (build : BuildInfo) : String :=
  s!"fintrack {build.version} ({build.revision} {build.state}, {build.profile})\n" ++
    s!"built {build.time} for {build.target}\n" ++ build.compiler

def current : BuildInfo :=
  ⟨"0.1.0", "unknown", "unknown", "unknown", "unknown", "unknown", "unknown"⟩

end BuildInfo

end HabitLedger
