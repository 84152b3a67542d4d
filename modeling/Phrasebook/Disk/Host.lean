import Phrasebook.Disk
import Phrasebook.Host
import Phrasebook.Locale.Tree

/-! The disk as a host. A file is replaced as a whole, so that no reader sees half of it; a watch
stands on the directory of its file, which need not be there yet. -/
namespace Phrasebook

structure DiskHost where
  disk : Disk := {}
  opened : Nat := 0
deriving Inhabited, Repr

namespace DiskHost

def listFiles (path : Path) (host : DiskHost) : Except HostFault (List Path) :=
  match host.disk.find path with
  | .error fault => .error (.listing path fault.message)
  | .ok (_,.file _) => .error (.listing path DiskFault.notDirectory.message)
  | .ok (place,.directory) =>
    .ok ((host.disk.children place).filterMap fun (name,node) =>
      let file := path.join ⟨name⟩
      if node ≠ .directory && Locale.isFile file then some file else none)

def write (path : Path) (content : String) (host : DiskHost) : Except HostFault DiskHost :=
  match host.disk.makeDirectories path.directory.ancestors >>= Disk.replace path content with
  | .error fault => .error (.write path fault.message)
  | .ok disk => .ok {host with disk := disk}

/-- The file that a watch is about, by its absolute path. -/
def watched (path : Path) (disk : Disk) : Except String Path :=
  match path.fileName? with
  | none => .error "not a file path"
  | some name =>
    match disk.find path.directory with
    | .error fault => .error fault.message
    | .ok (place,_) => .ok (Disk.pathOf (place ++ [name]))

def watch (path : Path) (_ : Subscriber) (host : DiskHost) : Except HostFault (WatchId × DiskHost) :=
  match watched path host.disk with
  | .error cause => .error (.watch path cause)
  | .ok _ => .ok (host.opened,{host with opened := host.opened + 1})

instance : Host DiskHost where
  list := listFiles
  directoryExists path host := host.disk.isDirectory path
  read? path host := (host.disk.read path).toOption
  write := write
  watch := watch
  close _ host := host

end DiskHost
end Phrasebook
