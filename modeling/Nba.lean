import Nba.Basic
import Nba.Config
import Nba.Args
import Nba.Queues
import Nba.Nic
import Nba.Coproc
import Nba.Comp
import Nba.Phases
import Nba.Offload
import Nba.Io
import Nba.Boot
import Nba.HmacSha1
import Nba.HmacInit
