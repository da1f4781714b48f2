import Umtp.Handles.Db
import Umtp.Buffers

namespace Umtp

open Handles

inductive Errno where
  | EPERM | ENOENT | EINTR | EIO | ENOEXEC | EBADF | EAGAIN | ENOMEM | EACCES | ENOTBLK | EBUSY
  | EEXIST | ENODEV | ENOTDIR | EISDIR | EINVAL | ENFILE | EMFILE | ETXTBSY | EFBIG | ENOSPC
  | ESPIPE | EROFS | EMLINK | EPIPE | ENAMETOOLONG | ENOSYS | ENOTEMPTY | ELOOP | ENOPKG
  | EREMOTEIO | ENOLINK | EBADFD | ELIBACC | ELIBBAD | ELIBSCN | ELIBMAX | ELIBEXEC | ENOTSUP
  | EINPROGRESS | ESTALE | EDQUOT | ENOMEDIUM | EMEDIUMTYPE | ECANCELED | ENOTRECOVERABLE
  | EHWPOISON | other
deriving DecidableEq, Repr

structure Stat where
  isDir : Bool
  size : Int
  mtime : Int
deriving DecidableEq, Repr

structure StatVfs where
  bsize : Nat
  blocks : Nat
  bavail : Nat
deriving DecidableEq, Repr

structure Tm where
  year : Int
  mon : Int
  mday : Int
  hour : Int
  min : Int
  sec : Int
deriving DecidableEq, Repr

-- The flags files are opened with, O_LARGEFILE apart: O_RDONLY, O_RDWR, and
-- O_CREAT | O_WRONLY | O_TRUNC.
inductive OpenFlags where
  | readOnly | readWrite | createTruncate
deriving DecidableEq, Repr

-- EP_DESCRIPTOR_IN and EP_DESCRIPTOR_INT_IN.
inductive Endpoint where
  | bulkIn | interruptIn
deriving DecidableEq, Repr

-- What the daemon asks the system without changing anything. `opendir` gives
-- the names that `readdir` returns one after the other, and `usbBacklog` a bound
-- on the packets that the host still sends in the current transfer.
inductive Query where
  | stat64 (path : CString)
  | lstat64 (path : CString)
  | opendir (path : CString)
  | realpath (path : CString)
  | statvfs (path : CString)
  | localtime (time : Int)
  | batteryLevel (path : CString)
  | usbBacklog
deriving DecidableEq, Repr

@[reducible] def Query.Ans : Query → Type
  | stat64 _ => Option Stat
  | lstat64 _ => Option Stat
  | opendir _ => Option (List CString)
  | realpath _ => Except Errno CString
  | statvfs _ => Option StatVfs
  | localtime _ => Option Tm
  | batteryLevel _ => Option Int
  | usbBacklog => Nat

-- What the daemon makes the system do. Calls that may change a file carry the
-- storage they are made for.
inductive Action where
  | malloc
  | entryMemory
  | mkdir (storageId : Nat) (path : CString)
  | open (storageId : Nat) (path : CString) (flags : OpenFlags)
  | truncate64 (storageId : Nat) (path : CString) (offset : Int)
  | rename (storageId : Nat) (path path2 : CString)
  | remove (storageId : Nat) (path : CString)
  | write (storageId : Nat) (file : Int) (bytes : List UInt8)
  | lseekSet (file offset : Int)
  | lseekEnd (file : Int)
  | read (file : Int) (size : Nat)
  | fsync (file : Int)
  | close (file : Int)
  | inotifyAddWatch (path : CString)
  | inotifyRmWatch (watchDescriptor : Int)
  | readUsb (maxsize : Nat)
  | writeUsb (channel : Endpoint) (bytes : List UInt8)
  | getCancelReq
  | clearCancelReq
  | setfsuid (uid : Int)
  | setfsgid (gid : Int)
  | lockInotifyMutex
  | unlockInotifyMutex
  | lockCancelMutex
  | unlockCancelMutex
deriving DecidableEq, Repr

-- The mutexes answer true for success; `read` and `readUsb` give `none` for a
-- negative result, and `open` the descriptor or -1.
@[reducible] def Action.Ans : Action → Type
  | malloc => Bool
  | entryMemory => AllocMem
  | mkdir _ _ => Bool
  | .open _ _ _ => Int
  | truncate64 _ _ _ => Except Errno Unit
  | rename _ _ _ => Bool
  | remove _ _ => Bool
  | write _ _ _ => Int
  | lseekSet _ _ => Unit
  | lseekEnd _ => Int
  | read _ _ => Option (List UInt8)
  | fsync _ => Unit
  | close _ => Unit
  | inotifyAddWatch _ => Int
  | inotifyRmWatch _ => Unit
  | readUsb _ => Option (List UInt8)
  | writeUsb _ _ => Unit
  | getCancelReq => Bool
  | clearCancelReq => Unit
  | setfsuid _ => Int
  | setfsgid _ => Int
  | lockInotifyMutex => Bool
  | unlockInotifyMutex => Bool
  | lockCancelMutex => Bool
  | unlockCancelMutex => Bool

-- The system the daemon runs on: the kernel with its file systems, the host on
-- the other end of the USB link and the C library's memory.
structure Os (σ : Type) where
  query : (q : Query) → σ → q.Ans
  act : (a : Action) → σ → a.Ans × σ

end Umtp
