import Mathlib

/-! # The services a reverse tunnel can expose -/

namespace CrabbyProxy
set_option autoImplicit false

inductive DbType where
  | postgres
  | mySQL
  | redis
  | mongoDB
  | custom (name : String)
  deriving DecidableEq

inductive ServiceType where
  | database (dbType : DbType)
  | webService
  | sshService
  | custom (name : String)
  deriving DecidableEq

end CrabbyProxy
