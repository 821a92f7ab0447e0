/-
The catalogue of commands: which ids are known, where their keys stand, what they do to a replicated set and how their
replies are reshaped. Ids are kept in capitals and looked up without regard to case; defining an id again replaces it.
-/
import RespClient.Command

namespace RespClient

/-- The known commands. -/
structure Catalogue where
  specs : List CommandSpec

namespace Catalogue

def empty : Catalogue := ⟨[]⟩

/-- The commands with `spec` among them, in place of one with the same id. -/
def define (c : Catalogue) (spec : CommandSpec) : Catalogue :=
  if c.specs.any (·.id == spec.id) then ⟨c.specs.map fun s => if s.id == spec.id then spec else s⟩
  else ⟨c.specs ++ [spec]⟩

def find? (c : Catalogue) (id : String) : Option CommandSpec := c.specs.find? (·.id == upperAscii id)

def supports (c : Catalogue) (id : String) : Bool := (c.find? id).isSome

/-- The command `id` with the given arguments. -/
def create (c : Catalogue) (id : String) (arguments : List Bytes) : Except ClientError Command :=
  match c.find? id with
  | some spec => .ok { spec, arguments }
  | none => .error (.unknownCommand id)

/-- The commands of the server. -/
def standard : Catalogue := ⟨[
  -- connection
    .named "AUTH" .keyless .read
  , .named "ECHO" .keyless .read
  , .named "PING" .keyless .read
  , .named "SELECT" .keyless .read
  , .named "QUIT" .keyless .unsupported
  -- keys
  , .named "EXISTS" .first .read .boolean
  , .named "DEL" .every .write
  , .named "TYPE" .first .read
  , .named "KEYS" .keyless .read
  , .named "RANDOMKEY" .keyless .read
  , .named "RENAME" .every .write
  , .named "RENAMENX" .every .write .boolean
  , .named "EXPIRE" .first .write .boolean
  , .named "EXPIREAT" .first .write .boolean
  , .named "PEXPIRE" .first .write .boolean
  , .named "PERSIST" .first .write .boolean
  , .named "TTL" .first .read
  , .named "PTTL" .first .read
  , .named "MOVE" .first .write .boolean
  , .named "SORT" .first .write
  , .named "DUMP" .first .read
  -- strings
  , .named "GET" .first .read
  , .named "SET" .first .write
  , .named "SETNX" .first .write .boolean
  , .named "SETEX" .first .write
  , .named "PSETEX" .first .write
  , .named "GETSET" .first .write
  , .named "MGET" .every .read
  , .named "MSET" .alternate .write
  , .named "MSETNX" .alternate .write .boolean
  , .named "APPEND" .first .write
  , .named "STRLEN" .first .read
  , .named "GETRANGE" .first .read
  , .named "SETRANGE" .first .write
  , .named "GETBIT" .first .read
  , .named "SETBIT" .first .write
  , .named "INCR" .first .write
  , .named "INCRBY" .first .write
  , .named "INCRBYFLOAT" .first .write .float
  , .named "DECR" .first .write
  , .named "DECRBY" .first .write
  -- hashes
  , .named "HGET" .first .read
  , .named "HSET" .first .write .boolean
  , .named "HSETNX" .first .write .boolean
  , .named "HMGET" .first .read
  , .named "HMSET" .first .write
  , .named "HDEL" .first .write
  , .named "HEXISTS" .first .read .boolean
  , .named "HLEN" .first .read
  , .named "HKEYS" .first .read
  , .named "HVALS" .first .read
  , .named "HGETALL" .first .read .map
  , .named "HINCRBY" .first .write
  , .named "HINCRBYFLOAT" .first .write .float
  -- lists
  , .named "LPUSH" .first .write
  , .named "RPUSH" .first .write
  , .named "LPUSHX" .first .write
  , .named "RPUSHX" .first .write
  , .named "LPOP" .first .write
  , .named "RPOP" .first .write
  , .named "LLEN" .first .read
  , .named "LRANGE" .first .read
  , .named "LINDEX" .first .read
  , .named "LSET" .first .write
  , .named "LREM" .first .write
  , .named "LTRIM" .first .write
  , .named "LINSERT" .first .write
  , .named "RPOPLPUSH" .every .write
  , .named "BLPOP" (.butLast 1) .write
  , .named "BRPOP" (.butLast 1) .write
  , .named "BRPOPLPUSH" (.butLast 1) .write
  -- sets
  , .named "SADD" .first .write
  , .named "SREM" .first .write
  , .named "SPOP" .first .write
  , .named "SMOVE" (.butLast 1) .write .boolean
  , .named "SCARD" .first .read
  , .named "SISMEMBER" .first .read .boolean
  , .named "SMEMBERS" .first .read
  , .named "SRANDMEMBER" .first .read
  , .named "SINTER" .every .read
  , .named "SINTERSTORE" .every .write
  , .named "SUNION" .every .read
  , .named "SUNIONSTORE" .every .write
  , .named "SDIFF" .every .read
  , .named "SDIFFSTORE" .every .write
  -- sorted sets
  , .named "ZADD" .first .write
  , .named "ZREM" .first .write
  , .named "ZINCRBY" .first .write .float
  , .named "ZCARD" .first .read
  , .named "ZCOUNT" .first .read
  , .named "ZSCORE" .first .read .float
  , .named "ZRANK" .first .read
  , .named "ZREVRANK" .first .read
  , .named "ZRANGE" .first .read
  , .named "ZREVRANGE" .first .read
  , .named "ZRANGEBYSCORE" .first .read
  , .named "ZREVRANGEBYSCORE" .first .read
  , .named "ZREMRANGEBYRANK" .first .write
  , .named "ZREMRANGEBYSCORE" .first .write
  , .named "ZUNIONSTORE" (.counted 1 true) .write
  , .named "ZINTERSTORE" (.counted 1 true) .write
  -- scripts
  , .named "EVAL" (.counted 1 false) .write
  , .named "EVALSHA" (.counted 1 false) .write
  , .named "SCRIPT" .keyless .write
  -- publishing
  , .named "PUBLISH" .first .write
  -- server
  , .named "DBSIZE" .keyless .read
  , .named "FLUSHDB" .keyless .write
  , .named "FLUSHALL" .keyless .unsupported
  , .named "INFO" .keyless .unsupported
  , .named "CONFIG" .keyless .unsupported
  , .named "MONITOR" .keyless .unsupported
  , .named "SLAVEOF" .keyless .unsupported
  , .named "SHUTDOWN" .keyless .unsupported
  , .named "LASTSAVE" .keyless .read
  , .named "TIME" .keyless .read
  ]⟩

end Catalogue

end RespClient
