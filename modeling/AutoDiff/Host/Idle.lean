import AutoDiff.Host.Basic

namespace AutoDiff.Host

def systemDirectories : List Location :=
  [["bin"], ["boot"], ["dev"], ["etc"], ["home"], ["lib"], ["lib64"], ["media"], ["mnt"], ["opt"], ["proc"], ["root"], ["run"],
    ["sbin"], ["srv"], ["sys"], ["tmp"], ["usr"], ["usr", "bin"], ["usr", "include"], ["usr", "lib"], ["usr", "local"],
    ["usr", "local", "bin"], ["usr", "sbin"], ["usr", "share"], ["var"], ["var", "tmp"]]

def sessionDirectory : Location := ["tmp", "session"]

/-- A machine that has no programs. -/
def idle : Host where
  disk := ⟨(sessionDirectory, .directory) :: systemDirectories.map (·, .directory)
    ++ [(["dev", "null"], .sink), (["etc", "passwd"], .file (.ofText "root:x:0:0:root:/root:/bin/bash\n") false)]⟩
  workingDirectory := sessionDirectory
  environment := [("PATH", "/usr/local/sbin:/usr/local/bin:/usr/sbin:/usr/bin:/sbin:/bin"), ("HOME", "/root")]
  launcher := fun _ _ _ _ _ => .error .notFound

end AutoDiff.Host
