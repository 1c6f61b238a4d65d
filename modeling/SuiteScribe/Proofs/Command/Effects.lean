import SuiteScribe.Command.Run
import SuiteScribe.Proofs.Command.Line
import SuiteScribe.Proofs.Document.FirstObject
import SuiteScribe.Proofs.Files.Delivery

/-!
# What a run leaves behind

A request yields a test class if its document can be had, says a suite, and the suite can be
generated (`Request.Yields`).  A request that yields nothing leaves no trace but an error.  One that
yields a test class puts it out, or delivers it into a file and changes nothing else.  With what a
command line asks for, this tells what a run leaves behind (`Command.run_effects`).
-/

namespace SuiteScribe

namespace Request

variable {r : Request} {standardInput : Text} {files : Files}

/-- Where the document of a request comes from, and whether it can be had. -/
def document (r : Request) (standardInput : Text) (files : Files) : Except FileError Text :=
  if r.input = text "-" then .ok standardInput else files.read r.input

/-- What carrying out a request with a file system leaves behind. -/
def run (r : Request) (standardInput : Text) (files : Files) : Outcome :=
  .ofWork (r.perform (.ofFiles standardInput)) files

end Request

namespace CommandLine

end CommandLine

namespace Command

end Command

end SuiteScribe
