import AutoDiff.Emulation.Delegation
import AutoDiff.Emulation.Shell.Start
import AutoDiff.Emulation.System.Compiler
import AutoDiff.Emulation.System.ConditionTool
import AutoDiff.Emulation.System.SearchTools

namespace AutoDiff.Programs

def tools : List (String × (Call → Running Nat)) :=
  [("true", fun _ => return 0), ("false", fun _ => return 1), ("echo", SmallTools.echo), ("printf", SmallTools.printf),
    ("test", ConditionTool.run false), ("[", ConditionTool.run true), ("sleep", SmallTools.sleep), ("uname", SmallTools.uname), ("whoami", SmallTools.whoami),
    ("id", SmallTools.identity), ("printenv", SmallTools.printEnvironment), ("which", SmallTools.which), ("strip", SmallTools.strip),
    ("mkdir", FileTools.mkdir), ("rmdir", FileTools.rmdir), ("rm", FileTools.rm), ("touch", FileTools.touch),
    ("cp", FileTools.cp), ("mv", FileTools.mv), ("ln", FileTools.ln), ("chmod", FileTools.chmod),
    ("install", FileTools.install), ("ls", FileTools.ls), ("pwd", FileTools.pwd), ("basename", FileTools.basename),
    ("dirname", FileTools.dirname), ("realpath", FileTools.realpath), ("readlink", FileTools.readlink),
    ("mktemp", FileTools.mktemp), ("cat", TextTools.cat), ("tac", TextTools.tac), ("tee", TextTools.tee),
    ("head", TextTools.head), ("tail", TextTools.tail), ("cut", TextTools.cut), ("wc", TextTools.wc),
    ("sort", TextTools.sort), ("uniq", TextTools.uniq), ("tr", TextTools.tr), ("seq", TextTools.seq),
    ("grep", SearchTools.grep), ("egrep", SearchTools.grepWith ['-', 'E']), ("fgrep", SearchTools.grepWith ['-', 'F']),
    ("sed", SearchTools.sed), ("expr", SearchTools.expr), ("cc", Compiler.run), ("gcc", Compiler.run),
    ("x86_64-linux-gnu-gcc", Compiler.run)]

/-- Programs that are known by their options only, with the number they end with when these are wrong. -/
def otherTools : List (String × String × Nat) :=
  [("arch", "", 1), ("b2sum", "l:bctwz", 1), ("base32", "diw:", 1), ("base64", "diw:", 1), ("basenc", "diw:", 1),
    ("chcon", "HLPRhvu:r:t:l:", 1), ("chgrp", "HLPRcfhv", 1), ("chown", "HLPRcfhv", 1), ("cksum", "a:bctwzl:", 1),
    ("comm", "123z", 1), ("csplit", "f:b:kn:sqz", 1), ("date", "d:f:I::r:Rs:u", 1), ("df", "aB:iF:hHklmPTt:vx:", 1),
    ("dir", "abcdfghiklmnopqrstuvw:xABCDFGHI:LNQRST:UXZ1", 2), ("dircolors", "bcp", 1), ("expand", "it:0123456789", 1),
    ("factor", "h", 1), ("fmt", "0123456789cstuw:p:g:", 1), ("fold", "bsw:0123456789", 1), ("groups", "", 1),
    ("hostid", "", 1), ("join", "a:e:i1:2:j:o:t:v:z", 1), ("link", "", 1), ("logname", "", 1), ("md5sum", "bctwz", 1),
    ("mkfifo", "m:Z", 1), ("mknod", "m:Z", 1), ("nproc", "", 1), ("numfmt", "d:z", 1), ("od", "A:aBbcDdeFfHhIij:LlN:OoS:st:vw::Xx", 1),
    ("paste", "d:sz", 1), ("pathchk", "pP", 1), ("pr", "0123456789aCcD:dEeFfh:iJl:mNn:o:rS:s:Ttvw:W:", 1),
    ("ptx", "AF:GM:ORS:TW:b:i:fg:o:trw:", 1), ("runcon", "+r:t:u:l:c", 125), ("sha1sum", "bctwz", 1), ("sha224sum", "bctwz", 1),
    ("sha256sum", "bctwz", 1), ("sha384sum", "bctwz", 1), ("sha512sum", "bctwz", 1), ("shuf", "ei:n:o:rz", 1),
    ("split", "0123456789C:a:b:del:n:t:ux", 1), ("stat", "c:fLt", 1), ("stdbuf", "+i:o:e:", 125), ("sum", "rs", 1),
    ("sync", "df", 1), ("tsort", "", 1), ("tty", "s", 2), ("unexpand", ",0123456789at:", 1), ("unlink", "", 1), ("users", "", 1),
    ("vdir", "abcdfghiklmnopqrstuvw:xABCDFGHI:LNQRST:UXZ1", 2), ("who", "abdlmpqrstuwHT", 1), ("yes", "", 1)]

/-- Programs that are there, of which nothing is known. -/
def unknownTools : List String :=
  ["bash", "rbash", "awk", "mawk", "perl", "dd", "du", "find", "xargs", "diff", "cmp", "gzip", "gunzip", "tar", "nl", "truncate",
    "shred", "stty", "kill", "ps", "hostname", "as", "ld", "ar", "nm", "objdump", "objcopy", "ranlib", "readelf", "size",
    "strings", "cpp", "c++", "g++", "make"]

def spawningTools : List String := ["sh", "dash", "env", "timeout", "nice", "nohup"]

def names : List String := tools.map (·.1) ++ otherTools.map (·.1) ++ spawningTools ++ unknownTools

/-- Ends a program of which nothing is known. -/
def unknown (c : Call) : Running ExitStatus := do
  c.mumble
  c.mumbleTo 1
  return .exited 1

/-- Runs the program of a name. -/
def run (spawn : Spawner) (name : String) (c : Call) : Running ExitStatus :=
  match name with
  | "sh" | "dash" | "bash" => Shell.shell spawn c
  | "env" => Delegation.env spawn c
  | "timeout" => Delegation.timeout spawn c
  | "nice" => Delegation.wrapper spawn c ⟨"n:", [("adjustment", 'n', true)], true⟩ (fun t => (TextTools.integer? t).isSome) ""
  | "nohup" => Delegation.wrapper spawn c ⟨"", [], true⟩ (fun _ => true) "failed to run command "
  | _ =>
    match tools.lookup name, otherTools.lookup name with
    | some tool, _ => return .exited (← tool c)
    | none, some (letters, code) =>
      match ((OptionTable.mk letters [] false).parse c.arguments).fault? with
      | some message => return .exited (← c.misuse code message)
      | none => unknown c
    | none, none => unknown c

end AutoDiff.Programs
