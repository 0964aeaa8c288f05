/-!
# Errors of the operating system

The system tells why it refused something by a code. Each code has a kind and a message.
-/

namespace RadioScan.Terminal

structure SystemError where
  code : Nat
  kind : String
  message : String
deriving DecidableEq

namespace SystemError

def notFound : SystemError := ⟨2, "NotFound", "No such file or directory"⟩

def permissionDenied : SystemError := ⟨13, "PermissionDenied", "Permission denied"⟩

def notDirectory : SystemError := ⟨20, "NotADirectory", "Not a directory"⟩

def isDirectory : SystemError := ⟨21, "IsADirectory", "Is a directory"⟩

def nameTooLong : SystemError := ⟨36, "InvalidFilename", "File name too long"⟩

def networkUnreachable : SystemError := ⟨101, "NetworkUnreachable", "Network is unreachable"⟩

def connectionRefused : SystemError := ⟨111, "ConnectionRefused", "Connection refused"⟩

end SystemError

end RadioScan.Terminal
